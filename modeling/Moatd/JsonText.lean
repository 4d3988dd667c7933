import Mathlib.Algebra.Order.Ring.Nat
import Mathlib.Data.List.Basic
import Mathlib.Tactic.Common

/-!
# JSON texts

Compact JSON texts of strings, of arrays, and of objects whose values are strings.  An
encoding is prefix-free if its texts say themselves where they end: what stands behind a text
can be cut off in one way only.  Texts that are put together from such parts with brackets,
commas and colons are so too, and the sizes of the parts add up.
-/

namespace JsonText

/-! ### Prefix-free encodings -/

/-- A text with something behind it is read in one way only. -/
def PrefixFree {α : Type*} (encode : α → List Char) : Prop :=
  ∀ a a' rest rest', encode a ++ rest = encode a' ++ rest' → a = a' ∧ rest = rest'

theorem PrefixFree.injective {α : Type*} {encode : α → List Char} (h : PrefixFree encode) :
    Function.Injective encode := by
  intro a a' heq
  have hnil : encode a ++ [] = encode a' ++ [] := by rw [heq]
  exact (h a a' [] [] hnil).1

/-! ### Characters -/

/-- The characters with an escape of their own. -/
def escapes : List (Char × Char) :=
  [('"', '"'), ('\\', '\\'), ('\x08', 'b'), ('\t', 't'), ('\n', 'n'), ('\x0c', 'f'), ('\r', 'r')]

/-- A hexadecimal digit in lower case. -/
def hexDigit (n : Nat) : Char := if n < 10 then Char.ofNat (48 + n) else Char.ofNat (87 + n)

/-- One character of a string. -/
def escape (c : Char) : List Char :=
  match escapes.lookup c with
  | some e => ['\\', e]
  | none =>
    if c.toNat < 32 then ['\\', 'u', '0', '0', hexDigit (c.toNat / 16), hexDigit (c.toNat % 16)]
    else [c]

theorem mem_escapes_of_lookup {c e : Char} (h : escapes.lookup c = some e) :
    (c, e) ∈ escapes := by
  obtain ⟨l, l', heq, -⟩ := List.lookup_eq_some_iff.mp h
  rw [heq]
  exact List.mem_append_right _ List.mem_cons_self

theorem escapes_injective : ∀ p ∈ escapes, ∀ q ∈ escapes, p.2 = q.2 → p.1 = q.1 := by decide

theorem hexDigit_injective : ∀ m < 32, ∀ n < 32, hexDigit (m / 16) = hexDigit (n / 16) →
    hexDigit (m % 16) = hexDigit (n % 16) → m = n := by decide

theorem escapes_ne_unicode : ∀ p ∈ escapes, p.2 ≠ 'u' := by decide

/-- The three forms of an escaped character. -/
theorem escape_cases (c : Char) :
    (∃ e, (c, e) ∈ escapes ∧ escape c = ['\\', e]) ∨
    (c.toNat < 32 ∧
      escape c = ['\\', 'u', '0', '0', hexDigit (c.toNat / 16), hexDigit (c.toNat % 16)]) ∨
    c ≠ '\\' ∧ c ≠ '"' ∧ escape c = [c] := by
  rw [escape]
  split
  · rename_i e hlookup
    exact .inl ⟨e, mem_escapes_of_lookup hlookup, rfl⟩
  · rename_i hlookup
    by_cases hcontrol : c.toNat < 32
    · rw [if_pos hcontrol]
      exact .inr (.inl ⟨hcontrol, rfl⟩)
    · rw [if_neg hcontrol]
      refine .inr (.inr ⟨?_, ?_, rfl⟩)
      · rintro rfl
        cases hlookup
      · rintro rfl
        cases hlookup

theorem escape_prefixFree : PrefixFree escape := by
  intro c c' rest rest' h
  -- texts of different forms differ in their first or second character
  obtain ⟨e, he, hc⟩ | ⟨hc32, hc⟩ | ⟨hb, -, hc⟩ := escape_cases c <;>
    obtain ⟨e', he', hc'⟩ | ⟨hc32', hc'⟩ | ⟨hb', -, hc'⟩ := escape_cases c' <;>
    simp only [hc, hc', List.cons_append, List.nil_append, List.cons.injEq, true_and] at h
  · exact ⟨escapes_injective _ he _ he' h.1, h.2⟩
  · exact absurd h.1 (escapes_ne_unicode _ he)
  · exact absurd h.1.symm hb'
  · exact absurd h.1.symm (escapes_ne_unicode _ he')
  · exact ⟨Char.toNat_inj.mp (hexDigit_injective _ hc32 _ hc32' h.1 h.2.1), h.2.2⟩
  · exact absurd h.1.symm hb'
  · exact absurd h.1 hb
  · exact absurd h.1 hb
  · exact h

/-! ### Texts from parts -/

/-- No text of the encoding begins with `c`, and none is empty. -/
def Avoids {α : Type*} (encode : α → List Char) (c : Char) : Prop :=
  ∀ a rest rest', encode a ++ rest ≠ c :: rest'

theorem escape_avoids_quote : Avoids escape '"' := by
  intro c rest rest' h
  obtain ⟨e, -, hc⟩ | ⟨-, hc⟩ | ⟨-, hquote, hc⟩ := escape_cases c
  · rw [hc, List.cons_append] at h
    exact absurd (List.cons.inj h).1 (by decide)
  · rw [hc, List.cons_append] at h
    exact absurd (List.cons.inj h).1 (by decide)
  · rw [hc, List.cons_append] at h
    exact hquote (List.cons.inj h).1

section Parts
variable {α : Type*} {encode : α → List Char}

theorem avoids_cons {c d : Char} (h : c ≠ d) : Avoids (fun a : α => c :: encode a) d :=
  fun _ _ _ heq => h (List.cons.inj heq).1

/-- The texts of the list one after the other, and what ends them. -/
def terminated (encode : α → List Char) (c : Char) (l : List α) : List Char :=
  l.flatMap encode ++ [c]

theorem terminated_cons (c : Char) (a : α) (l : List α) (rest : List Char) :
    terminated encode c (a :: l) ++ rest = encode a ++ (terminated encode c l ++ rest) := by
  rw [terminated, List.flatMap_cons, terminated, List.append_assoc, List.append_assoc,
    List.append_assoc]

/-- A list of parts ends at a character that begins none of them. -/
theorem PrefixFree.terminated {c : Char} (h : PrefixFree encode) (hend : Avoids encode c) :
    PrefixFree (terminated encode c) := by
  intro l
  induction l with
  | nil =>
    intro l' rest rest' heq
    rcases l' with _ | ⟨a', l'⟩
    · exact ⟨rfl, (List.cons.inj heq).2⟩
    · rw [terminated_cons] at heq
      exact absurd heq.symm (hend _ _ _)
  | cons a l ih =>
    intro l' rest rest' heq
    rw [terminated_cons] at heq
    rcases l' with _ | ⟨a', l'⟩
    · exact absurd heq (hend _ _ _)
    · rw [terminated_cons] at heq
      obtain ⟨rfl, htail⟩ := h _ _ _ _ heq
      obtain ⟨rfl, hrest⟩ := ih _ _ _ htail
      exact ⟨rfl, hrest⟩

theorem PrefixFree.cons (c : Char) (h : PrefixFree encode) :
    PrefixFree fun a => c :: encode a :=
  fun _ _ _ _ heq => h _ _ _ _ (List.cons.inj heq).2

/-- Elements between brackets, with commas between them. -/
def bracketed (opening closing : Char) (encode : α → List Char) : List α → List Char
  | [] => [opening, closing]
  | a :: l => opening :: (encode a ++ terminated (fun a => ',' :: encode a) closing l)

theorem PrefixFree.bracketed {closing : Char} (opening : Char) (h : PrefixFree encode)
    (hend : Avoids encode closing) (hcomma : ',' ≠ closing) :
    PrefixFree (bracketed opening closing encode) := by
  intro l l' rest rest' heq
  rcases l with _ | ⟨a, l⟩ <;> rcases l' with _ | ⟨a', l'⟩ <;>
    simp only [JsonText.bracketed, List.cons_append, List.nil_append, List.append_assoc,
      List.cons.injEq, true_and] at heq
  · exact ⟨rfl, heq⟩
  · exact absurd heq.symm (hend _ _ _)
  · exact absurd heq (hend _ _ _)
  · obtain ⟨rfl, htail⟩ := h _ _ _ _ heq
    obtain ⟨rfl, hrest⟩ := (h.cons ',').terminated (avoids_cons hcomma) _ _ _ _ htail
    exact ⟨rfl, hrest⟩

end Parts

/-- A JSON string. -/
def string (s : List Char) : List Char := '"' :: terminated escape '"' s

theorem string_prefixFree : PrefixFree string :=
  (escape_prefixFree.terminated escape_avoids_quote).cons '"'

/-- A JSON array. -/
def array {α : Type*} (encode : α → List Char) (l : List α) : List Char :=
  bracketed '[' ']' encode l

theorem PrefixFree.array {α : Type*} {encode : α → List Char} (h : PrefixFree encode)
    (hend : Avoids encode ']') : PrefixFree (array encode) :=
  h.bracketed '[' hend (by decide)

/-- A key with its value. -/
def member (m : List Char × List Char) : List Char := string m.1 ++ ':' :: string m.2

/-- A JSON object of strings. -/
def object (members : List (List Char × List Char)) : List Char :=
  bracketed '{' '}' member members

theorem member_prefixFree : PrefixFree member := by
  rintro ⟨k, v⟩ ⟨k', v'⟩ rest rest' heq
  rw [member, member, List.append_assoc, List.append_assoc] at heq
  -- the key ends at its quote, and the value behind the colon at its own
  obtain ⟨rfl, htail⟩ := string_prefixFree _ _ _ _ heq
  obtain ⟨rfl, hrest⟩ := string_prefixFree _ _ _ _ (List.cons.inj htail).2
  exact ⟨rfl, hrest⟩

theorem object_prefixFree : PrefixFree object :=
  member_prefixFree.bracketed '{' (avoids_cons (by decide)) (by decide)

/-! ### Records and variants -/

/-- A field with its key, if it has a value. -/
def present (f : List Char × Option (List Char)) : Option (List Char × List Char) :=
  f.2.map (Prod.mk f.1)

theorem present_of_some {key : List Char} {value : List Char} :
    present (key, some value) = some (key, value) := rfl

theorem key_of_mem_present {fields : List (List Char × Option (List Char))}
    {m : List Char × List Char} (h : m ∈ fields.filterMap present) :
    m.1 ∈ fields.map Prod.fst := by
  obtain ⟨f, hf, hm⟩ := List.mem_filterMap.mp h
  obtain ⟨value, -, rfl⟩ := Option.map_eq_some_iff.mp hm
  exact List.mem_map_of_mem hf

/-- Where the keys are known and differ from each other, what is present says what is absent. -/
theorem fields_of_present {fields fields' : List (List Char × Option (List Char))}
    (hkeys : fields.map Prod.fst = fields'.map Prod.fst) (hnodup : (fields.map Prod.fst).Nodup)
    (h : fields.filterMap present = fields'.filterMap present) : fields = fields' := by
  induction fields generalizing fields' with
  | nil => exact (List.map_eq_nil_iff.mp hkeys.symm).symm
  | cons f fields ih =>
    rcases fields' with _ | ⟨f', fields'⟩
    · cases hkeys
    obtain ⟨key, value⟩ := f
    obtain ⟨key', value'⟩ := f'
    obtain ⟨rfl, hrest⟩ := List.cons.inj hkeys
    obtain ⟨hkey, hrestNodup⟩ := List.nodup_cons.mp hnodup
    have hkey' : key ∉ fields'.map Prod.fst := hrest ▸ hkey
    rcases value with _ | value <;> rcases value' with _ | value'
    · rw [ih hrest hrestNodup h]
    · -- what is present on one side only would be a later field of the other
      refine absurd (key_of_mem_present (m := (key, value')) ?_) hkey
      rw [show fields.filterMap present = _ from h]
      exact List.mem_cons_self
    · refine absurd (key_of_mem_present (m := (key, value)) ?_) hkey'
      rw [← show _ = fields'.filterMap present from h]
      exact List.mem_cons_self
    · obtain ⟨hvalue, htail⟩ := List.cons.inj h
      cases hvalue
      rw [ih hrest hrestNodup htail]

/-- A record: absent fields are left out. -/
def record (fields : List (List Char × Option (List Char))) : List Char :=
  object (fields.filterMap present)

/-- A record begins with a brace. -/
theorem record_avoids {α : Type*} {fields : α → List (List Char × Option (List Char))} {c : Char}
    (h : '{' ≠ c) : Avoids (fun a => record (fields a)) c := by
  intro a rest rest' heq
  change bracketed '{' '}' member ((fields a).filterMap present) ++ rest = _ at heq
  generalize (fields a).filterMap present = members at heq
  rcases members with _ | ⟨m, members⟩
  · exact h (List.cons.inj heq).1
  · exact h (List.cons.inj heq).1

/-- A variant of an enumeration with its content. -/
def variant (name content : List Char) : List Char :=
  '{' :: (string name ++ ':' :: (content ++ ['}']))

theorem PrefixFree.variant {α : Type*} {encode : α → List Char} (name : List Char)
    (h : PrefixFree encode) : PrefixFree fun a => variant name (encode a) := by
  intro a a' rest rest' heq
  simp only [JsonText.variant, List.cons_append, List.append_assoc, List.cons.injEq, true_and,
    List.append_cancel_left_eq] at heq
  obtain ⟨rfl, hrest⟩ := h _ _ _ _ heq
  exact ⟨rfl, (List.cons.inj hrest).2⟩

/-! ### Sizes -/

/-- How many bytes of UTF-8 the text has. -/
def size (text : List Char) : Nat := (text.map Char.utf8Size).sum

@[simp] theorem size_nil : size [] = 0 := rfl

@[simp] theorem size_cons (c : Char) (text : List Char) :
    size (c :: text) = c.utf8Size + size text := by
  rw [size, List.map_cons, List.sum_cons, size]

@[simp] theorem size_append (text text' : List Char) :
    size (text ++ text') = size text + size text' := by
  rw [size, List.map_append, List.sum_append, size, size]

/-- Bytes of a character in a JSON string. -/
def escapedSize (c : Char) : Nat :=
  match escapes.lookup c with
  | some _ => 2
  | none => if c.toNat < 32 then 6 else c.utf8Size

/-- Bytes of a JSON string. -/
def stringSize (s : List Char) : Nat := (s.map escapedSize).sum + 2

/-- Bytes of a member of an object. -/
def memberSize (m : List Char × List Char) : Nat := stringSize m.1 + stringSize m.2 + 1

/-- Bytes of a list of elements between brackets. -/
def bracketedSize {α : Type*} (size : α → Nat) (l : List α) : Nat :=
  if l = [] then 2 else (l.map fun a => size a + 1).sum + 1

theorem escapes_utf8Size : ∀ p ∈ escapes, p.2.utf8Size = 1 := by decide

theorem hexDigit_utf8Size : ∀ n < 32, (hexDigit (n / 16)).utf8Size = 1 ∧
    (hexDigit (n % 16)).utf8Size = 1 := by decide

theorem size_escape (c : Char) : size (escape c) = escapedSize c := by
  rw [escape, escapedSize]
  split
  · rename_i e hlookup
    have he : e.utf8Size = 1 := escapes_utf8Size _ (mem_escapes_of_lookup hlookup)
    simp only [size_cons, size_nil, he]
    rfl
  · by_cases hcontrol : c.toNat < 32
    · obtain ⟨hhigh, hlow⟩ := hexDigit_utf8Size _ hcontrol
      rw [if_pos hcontrol, if_pos hcontrol]
      simp only [size_cons, size_nil, hhigh, hlow]
      rfl
    · rw [if_neg hcontrol, if_neg hcontrol]
      exact Nat.add_zero _

section Sizes
variable {α : Type*} {encode : α → List Char}

theorem size_terminated {c : Char} (hc : c.utf8Size = 1) (l : List α) :
    size (terminated encode c l) = (l.map fun a => size (encode a)).sum + 1 := by
  induction l with
  | nil => exact congrArg (· + 0) hc
  | cons a l ih =>
    have hcons : terminated encode c (a :: l) = encode a ++ terminated encode c l := by
      simpa only [List.append_nil] using terminated_cons c a l []
    rw [hcons, size_append, ih, List.map_cons, List.sum_cons, Nat.add_assoc]

theorem size_bracketed {opening closing : Char} (hopening : opening.utf8Size = 1)
    (hclosing : closing.utf8Size = 1) (l : List α) :
    size (bracketed opening closing encode l) = bracketedSize (fun a => size (encode a)) l := by
  rcases l with _ | ⟨a, l⟩
  · simp [bracketed, bracketedSize, hopening, hclosing]
  · have hcomma : Char.utf8Size ',' = 1 := rfl
    rw [bracketed, size_cons, size_append, size_terminated hclosing, hopening, bracketedSize,
      if_neg (List.cons_ne_nil _ _), List.map_cons, List.sum_cons]
    simp only [size_cons, hcomma, Nat.add_comm 1]
    omega

theorem size_string (s : List Char) : size (string s) = stringSize s := by
  have hquote : Char.utf8Size '"' = 1 := rfl
  have hmap : (s.map fun c => size (escape c)) = s.map escapedSize :=
    List.map_congr_left fun c _ => size_escape c
  rw [string, size_cons, size_terminated hquote, hquote, stringSize, hmap]
  omega

theorem size_member (m : List Char × List Char) : size (member m) = memberSize m := by
  have hcolon : Char.utf8Size ':' = 1 := rfl
  rw [member, size_append, size_cons, size_string, size_string, hcolon, memberSize]
  omega

theorem size_object (members : List (List Char × List Char)) :
    size (object members) = bracketedSize memberSize members := by
  rw [object, size_bracketed rfl rfl]
  simp only [size_member]

theorem size_array (l : List α) :
    size (array encode l) = bracketedSize (fun a => size (encode a)) l :=
  size_bracketed rfl rfl l

/-- What a field adds to the size of its record, with the comma before it. -/
def fieldSize (f : List Char × Option (List Char)) : Nat :=
  match f.2 with
  | none => 0
  | some value => memberSize (f.1, value) + 1

@[simp] theorem fieldSize_none (key : List Char) : fieldSize (key, none) = 0 := rfl

@[simp] theorem fieldSize_some (key value : List Char) :
    fieldSize (key, some value) = memberSize (key, value) + 1 := rfl

theorem sum_present (fields : List (List Char × Option (List Char))) :
    ((fields.filterMap present).map fun m => memberSize m + 1).sum =
      (fields.map fieldSize).sum := by
  induction fields with
  | nil => rfl
  | cons f fields ih =>
    obtain ⟨key, value⟩ := f
    rcases value with _ | value
    · rw [List.filterMap_cons_none rfl, List.map_cons, List.sum_cons, ih]
      exact (Nat.zero_add _).symm
    · rw [List.filterMap_cons_some present_of_some, List.map_cons, List.sum_cons, ih,
        List.map_cons, List.sum_cons]
      rfl

theorem size_record {fields : List (List Char × Option (List Char))}
    (h : fields.filterMap present ≠ []) :
    size (record fields) = (fields.map fieldSize).sum + 1 := by
  rw [record, size_object, bracketedSize, if_neg h, sum_present]

theorem size_variant (name content : List Char) :
    size (variant name content) = stringSize name + size content + 3 := by
  have hbraces : Char.utf8Size '\x7b' = 1 ∧ Char.utf8Size '\x7d' = 1 := ⟨rfl, rfl⟩
  have hcolon : Char.utf8Size ':' = 1 := rfl
  simp only [variant, size_cons, size_append, size_string, size_nil]
  rw [hcolon]
  omega

end Sizes

/-! ### Bytes -/

/-- A text in UTF-8. -/
def bytes (text : List Char) : List UInt8 := text.flatMap String.utf8EncodeChar

theorem length_bytes (text : List Char) : (bytes text).length = size text := by
  rw [bytes, List.length_flatMap, size]
  simp only [String.length_utf8EncodeChar]

theorem bytes_injective : Function.Injective bytes := by
  intro text text' h
  -- as strings the texts have the same bytes
  have hencode : text.utf8Encode = text'.utf8Encode := by
    rw [List.utf8Encode, List.utf8Encode]
    exact congrArg List.toByteArray h
  rw [← String.toByteArray_ofList, ← String.toByteArray_ofList] at hencode
  exact String.ofList_injective (String.toByteArray_inj.mp hencode)

end JsonText
