import Moatd.AddCommand
import Moatd.AtomicSwitch
import Moatd.AttachedNames
import Moatd.BankAgreement
import Moatd.BlockLog
import Moatd.BlockedSource
import Moatd.ConnKeys
import Moatd.ControlClients
import Moatd.ControlSocket
import Moatd.DoubleBuffer
import Moatd.DropProvenance
import Moatd.DropRate
import Moatd.FailedRequests
import Moatd.FragmentVerdicts
import Moatd.KillSafety
import Moatd.L2Offsets
import Moatd.LinkChanges
import Moatd.ListAnswer
import Moatd.ListEdits
import Moatd.LogLimiter
import Moatd.OutboundPolicy
import Moatd.PacketFates
import Moatd.PacketParse
import Moatd.Policy
import Moatd.ReplyLookups
import Moatd.ReplyWindow
import Moatd.Restart
import Moatd.RuleFamilies
import Moatd.RuleGrammar
import Moatd.RuleRetyping
import Moatd.SilentDrops
import Moatd.StaleNumbers
import Moatd.StatelessIngress
import Moatd.WholeFile
