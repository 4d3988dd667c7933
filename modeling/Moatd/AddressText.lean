import Moatd.RuleText

/-!
# Printing addresses

`Display` of the standard library's addresses, after its documentation, and `format_addr`,
which prints the addresses of a drop event with it.  What is printed reads back as the
same address (`ipAddrFromStr_formatAddr`).
-/

namespace Moatd

/-! ### Numbers -/

theorem toDigit_digitChar {radix d : Nat} (hradix : radix = 10 ∨ radix = 16) (hd : d < radix) :
    toDigit radix d.digitChar = some d := by
  have hten : ∀ d < 10, toDigit 10 d.digitChar = some d := by decide
  have hsixteen : ∀ d < 16, toDigit 16 d.digitChar = some d := by decide
  rcases hradix with rfl | rfl
  · exact hten d hd
  · exact hsixteen d hd

/-- The rest does not go on with a digit. -/
def NoDigit (radix : Nat) (rest : List Char) : Prop :=
  ∀ c, rest.head? = some c → toDigit radix c = none

section Digits
variable {radix : Nat} {rest : List Char}

theorem spanDigits_append {cs : List Char} {ds : List Nat}
    (h : cs.map (toDigit radix) = ds.map some) (hrest : NoDigit radix rest) :
    spanDigits radix (cs ++ rest) = (ds, rest) := by
  induction cs generalizing ds with
  | nil =>
    have hds : ds = [] := List.map_eq_nil_iff.mp h.symm
    subst hds
    cases rest with
    | nil => rfl
    | cons c rest => simp [spanDigits, hrest c rfl]
  | cons c cs ih =>
    cases ds with
    | nil => cases h
    | cons d ds =>
      rw [List.map_cons, List.map_cons, List.cons.injEq] at h
      simp [spanDigits, h.1, ih h.2]

/-- The digits of a number, as `{}` and `{:x}` print it. -/
theorem toDigits_spec (hradix : radix = 10 ∨ radix = 16) (n : Nat) :
    ∃ ds : List Nat, (Nat.toDigits radix n).map (toDigit radix) = ds.map some ∧
      ds.foldl (fun acc d => acc * radix + d) 0 = n := by
  have hbase : 1 < radix := by omega
  induction n using Nat.strongRecOn with
  | _ n ih =>
    by_cases hn : n < radix
    · refine ⟨[n], ?_, by simp⟩
      rw [Nat.toDigits_of_lt_base hn]
      simp [toDigit_digitChar hradix hn]
    · have hlt : n / radix < n := Nat.div_lt_self (by omega) hbase
      obtain ⟨ds, hmap, hvalue⟩ := ih _ hlt
      refine ⟨ds ++ [n % radix], ?_, ?_⟩
      · rw [Nat.toDigits_of_base_le hbase (by omega), List.map_append, hmap, List.map_append]
        simp [toDigit_digitChar hradix (Nat.mod_lt n (by omega))]
      · rw [List.foldl_append, hvalue]
        exact Nat.div_add_mod' n radix

/-- A number is printed without leading zeros. -/
theorem head_toDigits (hradix : radix = 10 ∨ radix = 16) {n : Nat} (hn : 0 < n) :
    (Nat.toDigits radix n).head? ≠ some '0' := by
  have hbase : 1 < radix := by omega
  induction n using Nat.strongRecOn with
  | _ n ih =>
    by_cases hlt : n < radix
    · have hdigit : ∀ d < 16, 0 < d → d.digitChar ≠ '0' := by decide
      rw [Nat.toDigits_of_lt_base hlt]
      intro h
      exact hdigit n (by omega) hn (Option.some.inj h)
    · have hpos : 0 < n / radix := Nat.div_pos (by omega) (by omega)
      rw [Nat.toDigits_of_base_le hbase (by omega),
        List.head?_append_of_ne_nil _ Nat.toDigits_ne_nil]
      exact ih _ (Nat.div_lt_self hn hbase) hpos

/-- What is printed consists of digits. -/
theorem not_mem_toDigits (hradix : radix = 10 ∨ radix = 16) {c : Char}
    (hc : toDigit radix c = none) (n : Nat) : c ∉ Nat.toDigits radix n := by
  obtain ⟨ds, hmap, -⟩ := toDigits_spec hradix n
  intro hmem
  have : toDigit radix c ∈ ds.map some := hmap ▸ List.mem_map_of_mem hmem
  rw [hc] at this
  simp at this

/-- **A number is read back.** -/
theorem readNumber_toDigits (hradix : radix = 10 ∨ radix = 16) {maxDigits max n : Nat}
    (allowZeroPrefix : Bool) (hmax : n ≤ max) (hlen : (Nat.toDigits radix n).length ≤ maxDigits)
    (hrest : NoDigit radix rest) :
    readNumber radix maxDigits allowZeroPrefix max (Nat.toDigits radix n ++ rest) =
      some (n, rest) := by
  obtain ⟨ds, hmap, hvalue⟩ := toDigits_spec hradix n
  have hdslen : ds.length = (Nat.toDigits radix n).length := by
    simpa using (congrArg List.length hmap).symm
  have hpos := Nat.length_toDigits_pos (b := radix) (n := n)
  have hne : ds ≠ [] := by
    rw [← List.length_pos_iff]
    omega
  have hzero : ¬ ((!allowZeroPrefix && (Nat.toDigits radix n ++ rest).head? == some '0' &&
      decide (1 < ds.length)) = true) := by
    rw [List.head?_append_of_ne_nil _ Nat.toDigits_ne_nil]
    rcases Nat.eq_zero_or_pos n with rfl | hn
    · rw [Nat.toDigits_zero, List.length_singleton] at hdslen
      simp [hdslen]
    · simp [head_toDigits hradix hn]
  rw [readNumber, spanDigits_append hmap hrest]
  dsimp only
  rw [if_neg (by rw [not_or]; exact ⟨hne, by omega⟩), if_neg hzero, hvalue, if_pos hmax]

end Digits

/-! ### Printing -/

/-- `Display` of an `Ipv4Addr` with these octets. -/
def ipv4Text : List UInt8 → List Char
  | [] => []
  | octet :: octets =>
    Nat.toDigits 10 octet.toNat ++ octets.flatMap fun o => '.' :: Nat.toDigits 10 o.toNat

/-- `fmt_subslice`: groups in hexadecimal, between colons. -/
def groupsText : List Nat → List Char
  | [] => []
  | group :: groups =>
    Nat.toDigits 16 group ++ groups.flatMap fun g => ':' :: Nat.toDigits 16 g

/-- `Ipv6Addr::segments`. -/
def segments : List UInt8 → List Nat
  | hi :: lo :: rest => (hi.toNat * 256 + lo.toNat) :: segments rest
  | _ => []

/-- A run of zero groups. -/
structure ZeroSpan where
  start : Nat
  len : Nat

/-- The loop that looks for the longest run, from group `i` on. -/
def longestZeros : List Nat → Nat → ZeroSpan → ZeroSpan → ZeroSpan
  | [], _, longest, _ => longest
  | group :: groups, i, longest, current =>
    if group = 0 then
      let current := ⟨if current.len = 0 then i else current.start, current.len + 1⟩
      longestZeros groups (i + 1) (if longest.len < current.len then current else longest) current
    else longestZeros groups (i + 1) longest ⟨0, 0⟩

/-- The octets in front of an IPv4 address in an IPv6 one. -/
def ipv4Mapped : List UInt8 := [0, 0, 0, 0, 0, 0, 0, 0, 0, 0, 0xff, 0xff]

/-- `Display` of an `Ipv6Addr` with these octets: an IPv4-mapped address ends in an IPv4
address, and of the others the longest run of two or more zero groups is left out. -/
def ipv6Text (octets : List UInt8) : List Char :=
  if octets.take 12 = ipv4Mapped then "::ffff:".toList ++ ipv4Text (octets.drop 12)
  else
    let groups := segments octets
    let zeroes := longestZeros groups 0 ⟨0, 0⟩ ⟨0, 0⟩
    if 1 < zeroes.len then
      groupsText (groups.take zeroes.start) ++
        ("::".toList ++ groupsText (groups.drop (zeroes.start + zeroes.len)))
    else groupsText groups

/-- `format_addr`. -/
def formatAddr (family : UInt8) (addr : Addr) : String :=
  if family = familyV4 then String.ofList (ipv4Text (addr.toList.take 4))
  else String.ofList (ipv6Text addr.toList)

/-! ### Reading IPv4 addresses back -/

theorem length_toDigits_octet (o : UInt8) : (Nat.toDigits 10 o.toNat).length ≤ 3 := by
  rw [Nat.length_toDigits_le_iff (by decide) (by decide)]
  have := o.toNat_lt
  omega

theorem readNumber_octet (o : UInt8) {rest : List Char} (hrest : NoDigit 10 rest) :
    readNumber 10 3 false 255 (Nat.toDigits 10 o.toNat ++ rest) = some (o.toNat, rest) := by
  have := o.toNat_lt
  exact readNumber_toDigits (Or.inl rfl) false (by omega) (length_toDigits_octet o) hrest

theorem noDigit_cons {radix : Nat} {c : Char} (hc : toDigit radix c = none) (rest : List Char) :
    NoDigit radix (c :: rest) := by
  intro c' h
  cases h
  exact hc

theorem readIpv4Addr_ipv4Text (a b c d : UInt8) (rest : List Char) (hrest : NoDigit 10 rest) :
    readIpv4Addr (ipv4Text [a, b, c, d] ++ rest) = some ([a, b, c, d], rest) := by
  have hdot (rest : List Char) : NoDigit 10 ('.' :: rest) := noDigit_cons (by decide) rest
  simp only [ipv4Text, List.flatMap_cons, List.flatMap_nil, List.append_nil, List.append_assoc,
    List.cons_append]
  simp [readIpv4Addr, readSeparator, readNumber_octet, hdot, hrest]

theorem length_ipv4Text (a b c d : UInt8) : (ipv4Text [a, b, c, d]).length ≤ 15 := by
  have ha := length_toDigits_octet a
  have hb := length_toDigits_octet b
  have hc := length_toDigits_octet c
  have hd := length_toDigits_octet d
  simp only [ipv4Text, List.flatMap_cons, List.flatMap_nil, List.length_append, List.length_cons,
    List.length_nil]
  omega

/-- **An IPv4 address is read back.** -/
theorem ipv4FromStr_ipv4Text (a b c d : UInt8) :
    ipv4FromStr (ipv4Text [a, b, c, d]) = some [a, b, c, d] := by
  have hread := readIpv4Addr_ipv4Text a b c d [] (fun c h => by cases h)
  have hlen := length_ipv4Text a b c d
  rw [List.append_nil] at hread
  rw [ipv4FromStr, if_neg (by omega), parseWith, hread]

/-! ### Texts without a dot -/

theorem mem_of_mem_spanDigits {radix : Nat} {s : List Char} {c : Char}
    (h : c ∈ (spanDigits radix s).2) : c ∈ s := by
  induction s with
  | nil => exact h
  | cons x xs ih =>
    rw [spanDigits] at h
    split at h
    · exact h
    · exact List.mem_cons_of_mem _ (ih h)

theorem mem_of_mem_readNumber {radix maxDigits max n : Nat} {allowZeroPrefix : Bool}
    {s rest : List Char} {c : Char}
    (hread : readNumber radix maxDigits allowZeroPrefix max s = some (n, rest)) (h : c ∈ rest) :
    c ∈ s := by
  unfold readNumber at hread
  dsimp only at hread
  split_ifs at hread
  cases hread
  exact mem_of_mem_spanDigits h

/-- The separator that has to come next is not there. -/
theorem readSeparator_eq_none {α : Type} {sep : Char} {i : Nat}
    {inner : List Char → Option (α × List Char)} {s : List Char} (hi : i ≠ 0)
    (h : s.head? ≠ some sep) : readSeparator sep i inner s = none := by
  unfold readSeparator
  rw [if_neg hi]
  cases s with
  | nil => rfl
  | cons c cs => exact if_neg fun hc => h (congrArg some hc)

theorem readIpv4Addr_eq_none {s : List Char} (h : '.' ∉ s) : readIpv4Addr s = none := by
  unfold readIpv4Addr
  dsimp only
  rw [readSeparator.eq_def, if_pos rfl]
  cases hread : readNumber 10 3 false 255 s with
  | none => rfl
  | some first =>
    have hrest : first.2.head? ≠ some '.' := by
      intro hdot
      exact h (mem_of_mem_readNumber hread (List.mem_of_mem_head? hdot))
    simp [readSeparator_eq_none (by decide : 1 ≠ 0) hrest]

theorem readSeparator_ipv4_eq_none {s : List Char} (h : '.' ∉ s) (i : Nat) :
    readSeparator ':' i readIpv4Addr s = none := by
  unfold readSeparator
  split
  · exact readIpv4Addr_eq_none h
  · split
    · split
      · exact readIpv4Addr_eq_none fun hdot => h (List.mem_cons_of_mem _ hdot)
      · rfl
    · rfl

/-! ### Reading groups back -/

/-- The groups from number `i` on, each behind its separator. -/
def separated : Nat → List Nat → List Char
  | _, [] => []
  | i, group :: groups =>
    (if i = 0 then [] else [':']) ++ (Nat.toDigits 16 group ++ separated (i + 1) groups)

theorem separated_succ (i : Nat) (groups : List Nat) :
    separated (i + 1) groups = groups.flatMap fun g => ':' :: Nat.toDigits 16 g := by
  induction groups generalizing i with
  | nil => rfl
  | cons group groups ih => simp [separated, ih]

theorem groupsText_eq (groups : List Nat) : groupsText groups = separated 0 groups := by
  cases groups with
  | nil => rfl
  | cons group groups => simp [groupsText, separated, separated_succ]

/-- Nothing but digits and colons. -/
theorem not_mem_separated {c : Char} (hc : toDigit 16 c = none) (hcolon : c ≠ ':') (i : Nat)
    (groups : List Nat) : c ∉ separated i groups := by
  induction groups generalizing i with
  | nil => exact List.not_mem_nil
  | cons group groups ih =>
    rw [separated, List.mem_append, List.mem_append, not_or, not_or]
    refine ⟨?_, not_mem_toDigits (Or.inr rfl) hc group, ih (i + 1)⟩
    split
    · exact List.not_mem_nil
    · exact fun h => hcolon (List.mem_singleton.mp h)

theorem dot_not_mem_separated (i : Nat) (groups : List Nat) : '.' ∉ separated i groups :=
  not_mem_separated (by decide) (by decide) i groups

theorem readNumber_colon {radix maxDigits max : Nat} {allowZeroPrefix : Bool}
    (hradix : toDigit radix ':' = none) (rest : List Char) :
    readNumber radix maxDigits allowZeroPrefix max (':' :: rest) = none := by
  simp [readNumber, spanDigits, hradix]

theorem readIpv4Addr_colon (rest : List Char) : readIpv4Addr (':' :: rest) = none := by
  simp [readIpv4Addr, readSeparator, readNumber_colon (show toDigit 10 ':' = none by decide)]

/-- No group comes next. -/
def GroupsEnd (i : Nat) (rest : List Char) : Prop :=
  readSeparator ':' i (readNumber 16 4 true 65535) rest = none

theorem groupsEnd_nil (i : Nat) : GroupsEnd i [] := by
  rw [GroupsEnd, readSeparator]
  split <;> rfl

theorem groupsEnd_colons (i : Nat) (rest : List Char) : GroupsEnd i (':' :: ':' :: rest) := by
  rw [GroupsEnd, readSeparator]
  split
  · exact readNumber_colon (by decide) _
  · rw [if_pos rfl]
    exact readNumber_colon (by decide) rest

/-- What follows the groups: nothing, or the colons of the part left out. -/
inductive AfterGroups : List Char → Prop
  | nil : AfterGroups []
  | colons (rest : List Char) : AfterGroups (':' :: ':' :: rest)

theorem AfterGroups.groupsEnd {rest : List Char} (h : AfterGroups rest) (i : Nat) :
    GroupsEnd i rest := by
  cases h with
  | nil => exact groupsEnd_nil i
  | colons rest => exact groupsEnd_colons i rest

theorem AfterGroups.noDigit {rest : List Char} (h : AfterGroups rest) (groups : List Nat)
    (i : Nat) : NoDigit 16 (separated (i + 1) groups ++ rest) := by
  cases groups with
  | nil =>
    cases h with
    | nil => exact fun c h => by cases h
    | colons rest => exact noDigit_cons (by decide) _
  | cons group groups =>
    rw [separated, if_neg (Nat.succ_ne_zero i)]
    exact noDigit_cons (by decide) _

theorem length_toDigits_group {group : Nat} (h : group < 65536) :
    (Nat.toDigits 16 group).length ≤ 4 := by
  rw [Nat.length_toDigits_le_iff (by decide) (by decide)]
  exact h

section Step
variable {limit n i : Nat} {s rest : List Char}

/-- One group is read. -/
theorem readGroups_group {group : Nat} (hipv4 : readSeparator ':' i readIpv4Addr s = none)
    (hread : readSeparator ':' i (readNumber 16 4 true 65535) s = some (group, rest)) :
    readGroups limit (n + 1) i s =
      (groupBytes group ++ (readGroups limit n (i + 1) rest).1,
        (readGroups limit n (i + 1) rest).2) := by
  simp only [readGroups, hipv4, hread, ite_self]

/-- No more groups are read. -/
theorem readGroups_end (hipv4 : readSeparator ':' i readIpv4Addr s = none)
    (hend : GroupsEnd i s) : readGroups limit n i s = ([], false, s) := by
  rw [GroupsEnd] at hend
  cases n with
  | zero => rfl
  | succ n => simp only [readGroups, hipv4, hend, ite_self]

/-- An embedded IPv4 address ends the groups. -/
theorem readGroups_ipv4 {octets : List UInt8} (hi : i + 1 < limit)
    (hread : readSeparator ':' i readIpv4Addr s = some (octets, rest)) :
    readGroups limit (n + 1) i s = (octets, true, rest) := by
  simp only [readGroups, hread, if_pos hi]

end Step

/-- **Groups are read back**, up to where they end. -/
theorem readGroups_separated (limit n i : Nat) {groups : List Nat} {rest : List Char}
    (hlen : groups.length ≤ n) (hgroups : ∀ g ∈ groups, g < 65536) (hrest : AfterGroups rest)
    (hdot : '.' ∉ rest) :
    readGroups limit n i (separated i groups ++ rest) =
      (groups.flatMap groupBytes, false, rest) := by
  induction groups generalizing n i with
  | nil => exact readGroups_end (readSeparator_ipv4_eq_none hdot i) (hrest.groupsEnd i)
  | cons group groups ih =>
    cases n with
    | zero => cases hlen
    | succ n =>
      have hlow : '.' ∉ separated i (group :: groups) ++ rest := by
        rw [List.mem_append, not_or]
        exact ⟨dot_not_mem_separated i _, hdot⟩
      have hgroup : group < 65536 := hgroups group List.mem_cons_self
      have hnumber : readNumber 16 4 true 65535
          (Nat.toDigits 16 group ++ (separated (i + 1) groups ++ rest)) =
          some (group, separated (i + 1) groups ++ rest) :=
        readNumber_toDigits (Or.inr rfl) true (by omega) (length_toDigits_group hgroup)
          (hrest.noDigit groups i)
      have hread : readSeparator ':' i (readNumber 16 4 true 65535)
          (separated i (group :: groups) ++ rest) =
          some (group, separated (i + 1) groups ++ rest) := by
        rw [readSeparator.eq_def, separated]
        by_cases hi : i = 0
        · rw [if_pos hi, if_pos hi, List.nil_append, List.append_assoc]
          exact hnumber
        · rw [if_neg hi, if_neg hi]
          simpa using hnumber
      have htail := ih n (i + 1) (Nat.le_of_succ_le_succ hlen)
        fun g hg => hgroups g (List.mem_cons_of_mem _ hg)
      rw [readGroups_group (readSeparator_ipv4_eq_none hlow i) hread, htail]
      rfl

/-! ### Groups and octets -/

theorem length_flatMap_groupBytes (groups : List Nat) :
    (groups.flatMap groupBytes).length = 2 * groups.length := by
  induction groups with
  | nil => rfl
  | cons group groups ih =>
    rw [List.flatMap_cons, List.length_append, ih, List.length_cons]
    show 2 + _ = _
    omega

theorem flatMap_groupBytes_replicate (n : Nat) :
    (List.replicate n 0).flatMap groupBytes = List.replicate (2 * n) 0 := by
  induction n with
  | zero => rfl
  | succ n ih =>
    rw [List.replicate_succ, List.flatMap_cons, ih, Nat.mul_succ, Nat.add_comm,
      List.replicate_add]
    rfl

theorem segments_spec {n : Nat} {octets : List UInt8} (h : octets.length = 2 * n) :
    (segments octets).length = n ∧ (segments octets).flatMap groupBytes = octets ∧
      ∀ g ∈ segments octets, g < 65536 := by
  induction n generalizing octets with
  | zero =>
    rw [List.eq_nil_of_length_eq_zero h]
    exact ⟨rfl, rfl, fun g hg => absurd hg List.not_mem_nil⟩
  | succ n ih =>
    match octets, h with
    | hi :: lo :: rest, h =>
      simp only [List.length_cons] at h
      obtain ⟨hlen, hbytes, hlt⟩ := @ih rest (by omega)
      have hhi := hi.toNat_lt
      have hlo := lo.toNat_lt
      have hgroup : groupBytes (hi.toNat * 256 + lo.toNat) = [hi, lo] := by
        rw [groupBytes, show (hi.toNat * 256 + lo.toNat) / 256 = hi.toNat by omega,
          show (hi.toNat * 256 + lo.toNat) % 256 = lo.toNat by omega, UInt8.ofNat_toNat,
          UInt8.ofNat_toNat]
      refine ⟨by rw [segments, List.length_cons, hlen], ?_, ?_⟩
      · rw [segments, List.flatMap_cons, hgroup, hbytes]
        rfl
      · intro g hg
        rw [segments, List.mem_cons] at hg
        rcases hg with rfl | hg
        · omega
        · exact hlt g hg

/-! ### The part left out -/

/-- The run stands in the groups, with these behind it. -/
def ZeroSpan.StandsIn (span : ZeroSpan) (groups : List Nat) : Prop :=
  ∃ front back, groups = front ++ (List.replicate span.len 0 ++ back) ∧ front.length = span.start

/-- What the loop knows after the groups `done`: the longest run stands in them, and the
current run, if there is one, ends with them. -/
structure RunsOf (done : List Nat) (longest current : ZeroSpan) : Prop where
  longest : longest.StandsIn done
  current : ∃ front, done = front ++ List.replicate current.len 0 ∧
    (current.len ≠ 0 → front.length = current.start)

theorem ZeroSpan.StandsIn.snoc {span : ZeroSpan} {groups : List Nat} (h : span.StandsIn groups)
    (group : Nat) : span.StandsIn (groups ++ [group]) := by
  obtain ⟨front, back, rfl, hstart⟩ := h
  exact ⟨front, back ++ [group], by simp only [List.append_assoc], hstart⟩

theorem RunsOf.zero {done : List Nat} {longest current next : ZeroSpan}
    (h : RunsOf done longest current)
    (hnext : next = ⟨if current.len = 0 then done.length else current.start, current.len + 1⟩) :
    RunsOf (done ++ [0]) (if longest.len < next.len then next else longest) next := by
  have hrun : ∃ front, done ++ [0] = front ++ List.replicate next.len 0 ∧
      front.length = next.start := by
    obtain ⟨front, hdone, hstart⟩ := h.current
    refine ⟨front, ?_, ?_⟩
    · rw [hdone, hnext, List.append_assoc, List.replicate_succ']
    · rw [hnext]
      split
      · rename_i hlen
        rw [hdone, hlen]
        simp
      · rename_i hlen
        exact hstart hlen
  obtain ⟨front, hdone, hstart⟩ := hrun
  refine ⟨?_, front, hdone, fun _ => hstart⟩
  split
  · exact ⟨front, [], by rw [List.append_nil, hdone], hstart⟩
  · exact h.longest.snoc 0

theorem RunsOf.nonzero {done : List Nat} {longest current : ZeroSpan}
    (h : RunsOf done longest current) (group : Nat) :
    RunsOf (done ++ [group]) longest ⟨0, 0⟩ :=
  ⟨h.longest.snoc group, done ++ [group], (List.append_nil _).symm, fun hlen => absurd rfl hlen⟩

/-- **The loop finds a run of zeros.** -/
theorem longestZeros_standsIn {done : List Nat} (groups : List Nat) {longest current : ZeroSpan}
    (h : RunsOf done longest current) :
    (longestZeros groups done.length longest current).StandsIn (done ++ groups) := by
  induction groups generalizing done longest current with
  | nil =>
    rw [longestZeros, List.append_nil]
    exact h.longest
  | cons group groups ih =>
    rw [longestZeros, ← List.singleton_append (x := group), ← List.append_assoc]
    have hlen : (done ++ [group]).length = done.length + 1 := by simp
    by_cases hzero : group = 0
    · rw [if_pos hzero, ← hlen, hzero]
      exact ih (h.zero rfl)
    · rw [if_neg hzero, ← hlen]
      exact ih (h.nonzero group)

/-! ### Reading IPv6 addresses back -/

/-- An address whose groups are all printed. -/
theorem readIpv6Addr_groupsText {groups : List Nat} (hlen : groups.length = 8)
    (hgroups : ∀ g ∈ groups, g < 65536) :
    readIpv6Addr (groupsText groups) = some (groups.flatMap groupBytes, []) := by
  have hread := readGroups_separated 8 8 0 (Nat.le_of_eq hlen) hgroups
    .nil List.not_mem_nil
  have hbytes := length_flatMap_groupBytes groups
  rw [List.append_nil, ← groupsText_eq] at hread
  rw [readIpv6Addr, hread]
  dsimp only
  rw [if_pos (by omega)]

/-- Behind a front part, the colons and a back part. -/
theorem readIpv6Addr_colons {s rest : List Char} {head tail : List UInt8} {ipv4 : Bool}
    (hhead : readGroups 8 8 0 s = (head, false, ':' :: ':' :: rest)) (hlen : head.length ≠ 16)
    (htail : readGroups (8 - (head.length / 2 + 1)) (8 - (head.length / 2 + 1)) 0 rest =
      (tail, ipv4, [])) :
    readIpv6Addr s =
      some (head ++ List.replicate (16 - head.length - tail.length) 0 ++ tail, []) := by
  have hresult : readIpv6Addr s =
      some (head ++ List.replicate (16 - head.length -
        (readGroups (8 - (head.length / 2 + 1)) (8 - (head.length / 2 + 1)) 0 rest).1.length) 0 ++
        (readGroups (8 - (head.length / 2 + 1)) (8 - (head.length / 2 + 1)) 0 rest).1,
        (readGroups (8 - (head.length / 2 + 1)) (8 - (head.length / 2 + 1)) 0 rest).2.2) := by
    rw [readIpv6Addr, hhead]
    dsimp only
    rw [if_neg hlen, if_neg (by decide)]
    rfl
  rw [hresult, htail]

/-- An address with a part left out. -/
theorem readIpv6Addr_compressed {front back : List Nat} (hlen : front.length + back.length < 8)
    (hfront : ∀ g ∈ front, g < 65536) (hback : ∀ g ∈ back, g < 65536) :
    readIpv6Addr (groupsText front ++ ("::".toList ++ groupsText back)) =
      some (front.flatMap groupBytes ++
        List.replicate (16 - 2 * front.length - 2 * back.length) 0 ++
          back.flatMap groupBytes, []) := by
  have hdot : '.' ∉ "::".toList ++ groupsText back := by
    rw [List.mem_append, not_or, groupsText_eq]
    exact ⟨by decide, dot_not_mem_separated 0 back⟩
  have hhead := readGroups_separated 8 8 0 (by omega) hfront
    (.colons (groupsText back)) hdot
  have htail := readGroups_separated (8 - (front.length + 1)) (8 - (front.length + 1)) 0
    (by omega) hback .nil List.not_mem_nil
  have hfrontLen := length_flatMap_groupBytes front
  have hbackLen := length_flatMap_groupBytes back
  rw [← groupsText_eq] at hhead
  rw [List.append_nil, ← groupsText_eq] at htail
  have hhalf : (front.flatMap groupBytes).length / 2 = front.length := by omega
  rw [← hhalf] at htail
  rw [← hfrontLen, ← hbackLen]
  exact readIpv6Addr_colons hhead (by omega) htail

/-- An IPv4-mapped address. -/
theorem readIpv6Addr_mapped (a b c d : UInt8) :
    readIpv6Addr ("::ffff:".toList ++ ipv4Text [a, b, c, d]) =
      some (ipv4Mapped ++ [a, b, c, d], []) := by
  have hffff : "ffff:".toList = Nat.toDigits 16 65535 ++ [':'] := by decide
  have hnumber : readNumber 16 4 true 65535 ("ffff:".toList ++ ipv4Text [a, b, c, d]) =
      some (65535, ':' :: ipv4Text [a, b, c, d]) := by
    rw [hffff, List.append_assoc]
    exact readNumber_toDigits (Or.inr rfl) true (by decide) (by decide) (noDigit_cons (by decide) _)
  have hipv4 := readIpv4Addr_ipv4Text a b c d [] (fun c h => by cases h)
  rw [List.append_nil] at hipv4
  have hnone : readIpv4Addr ("ffff:".toList ++ ipv4Text [a, b, c, d]) = none := by
    simp [readIpv4Addr, readSeparator, readNumber, spanDigits, show toDigit 10 'f' = none by decide]
  have hsecond : readSeparator ':' 1 readIpv4Addr (':' :: ipv4Text [a, b, c, d]) =
      some ([a, b, c, d], []) := by
    rw [readSeparator.eq_def, if_neg (by decide)]
    exact hipv4
  have htail : readGroups 7 7 0 ("ffff:".toList ++ ipv4Text [a, b, c, d]) =
      ([0xff, 0xff, a, b, c, d], true, []) := by
    rw [readGroups_group (by rw [readSeparator.eq_def, if_pos rfl, hnone])
      (by rw [readSeparator.eq_def, if_pos rfl, hnumber])]
    rw [readGroups_ipv4 (i := 1) (by decide) hsecond]
    rfl
  have hhead : readGroups 8 8 0 (':' :: ':' :: ("ffff:".toList ++ ipv4Text [a, b, c, d])) =
      ([], false, ':' :: ':' :: ("ffff:".toList ++ ipv4Text [a, b, c, d])) := readGroups_end
    (by rw [readSeparator.eq_def, if_pos rfl, readIpv4Addr_colon]) (groupsEnd_colons 0 _)
  exact readIpv6Addr_colons hhead (by decide) htail

/-! ### What is printed reads back -/

theorem dot_not_mem_groupsText (groups : List Nat) : '.' ∉ groupsText groups := by
  rw [groupsText_eq]
  exact dot_not_mem_separated 0 groups

/-- An IPv6 address that is not IPv4-mapped is printed without a dot, and read back. -/
theorem ipv6Text_unmapped {octets : List UInt8} (hlen : octets.length = 16)
    (hmapped : octets.take 12 ≠ ipv4Mapped) :
    '.' ∉ ipv6Text octets ∧ readIpv6Addr (ipv6Text octets) = some (octets, []) := by
  obtain ⟨hgroups, hbytes, hlt⟩ := segments_spec (n := 8) hlen
  have hstart : RunsOf [] ⟨0, 0⟩ ⟨0, 0⟩ :=
    ⟨⟨[], [], rfl, rfl⟩, ⟨[], rfl, fun h => absurd rfl h⟩⟩
  have hspan := longestZeros_standsIn (segments octets) hstart
  rw [List.nil_append, List.length_nil] at hspan
  rw [ipv6Text, if_neg hmapped]
  dsimp only
  generalize longestZeros (segments octets) 0 ⟨0, 0⟩ ⟨0, 0⟩ = span at hspan
  by_cases hlong : 1 < span.len
  · obtain ⟨front, back, hsplit, hfront⟩ := hspan
    have htake : (segments octets).take span.start = front := by
      rw [hsplit, ← hfront, List.take_left]
    have hdrop : (segments octets).drop (span.start + span.len) = back := by
      rw [hsplit, ← hfront, ← List.append_assoc]
      exact List.drop_left' (by simp)
    have hcount : front.length + (span.len + back.length) = 8 := by
      rw [← hgroups, hsplit]
      simp
    rw [if_pos hlong, htake, hdrop]
    refine ⟨?_, ?_⟩
    · rw [List.mem_append, List.mem_append, not_or, not_or]
      exact ⟨dot_not_mem_groupsText front, by decide, dot_not_mem_groupsText back⟩
    · rw [hsplit] at hbytes hlt
      have hread := readIpv6Addr_compressed (show front.length + back.length < 8 by omega)
        (fun g hg => hlt g (List.mem_append_left _ hg))
        (fun g hg => hlt g (List.mem_append_right _ (List.mem_append_right _ hg)))
      rw [List.flatMap_append, List.flatMap_append, flatMap_groupBytes_replicate] at hbytes
      rw [hread, show 16 - 2 * front.length - 2 * back.length = 2 * span.len by omega,
        List.append_assoc, hbytes]
  · rw [if_neg hlong]
    have hread := readIpv6Addr_groupsText hgroups hlt
    rw [hbytes] at hread
    exact ⟨dot_not_mem_groupsText _, hread⟩

/-- **An IPv6 address is read back**, and not as an IPv4 address. -/
theorem ipv6FromStr_ipv6Text {octets : List UInt8} (hlen : octets.length = 16) :
    ipv4FromStr (ipv6Text octets) = none ∧ ipv6FromStr (ipv6Text octets) = some octets := by
  by_cases hmapped : octets.take 12 = ipv4Mapped
  · have hdrop : (octets.drop 12).length = 4 := by rw [List.length_drop, hlen]
    match htail : octets.drop 12, hdrop with
    | [a, b, c, d], _ =>
      have hoctets : octets = ipv4Mapped ++ [a, b, c, d] := by
        rw [← hmapped, ← htail, List.take_append_drop]
      rw [ipv6Text, if_pos hmapped, htail, ipv6FromStr, ipv4FromStr, parseWith, parseWith,
        readIpv6Addr_mapped, hoctets]
      refine ⟨?_, rfl⟩
      rw [show "::ffff:".toList ++ ipv4Text [a, b, c, d] =
        ':' :: (":ffff:".toList ++ ipv4Text [a, b, c, d]) from rfl, readIpv4Addr_colon, ite_self]
  · obtain ⟨hdot, hread⟩ := ipv6Text_unmapped hlen hmapped
    rw [ipv6FromStr, ipv4FromStr, parseWith, parseWith, hread, readIpv4Addr_eq_none hdot, ite_self]
    exact ⟨rfl, rfl⟩

/-- The address that `format_addr` prints. -/
def printedAddr (family : UInt8) (addr : Addr) : IpAddr :=
  if family = familyV4 then ⟨familyV4, addr.toList.take 4⟩ else ⟨familyV6, addr.toList⟩

theorem exists_take_four (addr : Addr) : ∃ a b c d, addr.toList.take 4 = [a, b, c, d] := by
  have hlen : (addr.toList.take 4).length = 4 := by simp
  match h : addr.toList.take 4, hlen with
  | [a, b, c, d], _ => exact ⟨a, b, c, d, rfl⟩

/-- **What `format_addr` prints is that address.** -/
theorem ipAddrFromStr_formatAddr (family : UInt8) (addr : Addr) :
    ipAddrFromStr (formatAddr family addr).toList = some (printedAddr family addr) := by
  unfold formatAddr printedAddr ipAddrFromStr
  by_cases hfamily : family = familyV4
  · obtain ⟨a, b, c, d, hoctets⟩ := exists_take_four addr
    rw [if_pos hfamily, if_pos hfamily, String.toList_ofList, hoctets, ipv4FromStr_ipv4Text]
  · obtain ⟨hnone, hsome⟩ := ipv6FromStr_ipv6Text (show addr.toList.length = 16 by simp)
    rw [if_neg hfamily, if_neg hfamily, String.toList_ofList, hnone, hsome]
    rfl

theorem not_mem_ipv4Text {c : Char} (hc : toDigit 10 c = none) (hdot : c ≠ '.')
    (octets : List UInt8) : c ∉ ipv4Text octets := by
  have hdigits (o : UInt8) : c ∉ Nat.toDigits 10 o.toNat := not_mem_toDigits (Or.inl rfl) hc _
  cases octets with
  | nil => exact List.not_mem_nil
  | cons octet octets =>
    simp [ipv4Text, hdigits, hdot]

theorem slash_not_mem_formatAddr (family : UInt8) (addr : Addr) :
    '/' ∉ (formatAddr family addr).toList := by
  have hipv4 := not_mem_ipv4Text (c := '/') (by decide) (by decide)
  have hgroups (groups : List Nat) : '/' ∉ groupsText groups := by
    rw [groupsText_eq]
    exact not_mem_separated (by decide) (by decide) 0 groups
  unfold formatAddr
  split
  · rw [String.toList_ofList]
    exact hipv4 _
  · rw [String.toList_ofList, ipv6Text]
    split
    · rw [List.mem_append, not_or]
      exact ⟨by decide, hipv4 _⟩
    · dsimp only
      split
      · rw [List.mem_append, List.mem_append, not_or, not_or]
        exact ⟨hgroups _, by decide, hgroups _⟩
      · exact hgroups _

/-- As the address of a rule it denotes the whole address. -/
theorem cidrText_formatAddr (family : UInt8) (addr : Addr) :
    CidrText (formatAddr family addr) (printedAddr family addr)
      (printedAddr family addr).width :=
  .host (slash_not_mem_formatAddr family addr) (ipAddrFromStr_formatAddr family addr)

example : formatAddr familyV6 #v[0x20, 1, 0xd, 0xb8, 0, 0, 0, 0, 0, 0, 0, 1, 0, 0, 0, 0] =
    "2001:db8::1:0:0" := by decide

end Moatd
