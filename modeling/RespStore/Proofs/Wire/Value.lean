import Mathlib.Data.List.Basic
import Mathlib.Data.List.Forall2
import Mathlib.Data.List.TakeWhile
import RespStore.Proofs.Wire.Header
import RespStore.Wire.Encoding

/-!
# RespStore.Proofs.Wire.Value

Values as clients read them. A value begins with a mark and a line; a bulk string goes on with a
payload of the announced size, and an array with the announced number of items, which are values
again. `Value.first?` reads one value and `Value.readAll` as many as there are. They know nothing of
what a store replies, and refuse a line break that does not end a line.

Where a value ends depends on no bytes behind it (`read?_append`), so what is a whole value is not
the beginning of a longer one. `Reads` says of some bytes that they are read as one value whatever
follows, and is shown for each way of writing a value; rows of such bytes are read as the row of
their values (`readAll_flatten`).
-/

namespace RespStore

/-! ### Lines and numbers -/

namespace Bytes

/-- The byte breaks a line. -/
def isBreak (b : UInt8) : Bool := b == cr || b == lf

/-- The text stands on one line. -/
def Unbroken (text : Bytes) : Prop := ∀ b ∈ text, isBreak b = false

instance (text : Bytes) : Decidable (Unbroken text) :=
  inferInstanceAs (Decidable (∀ b ∈ text, isBreak b = false))

theorem Unbroken.notMem {text : Bytes} (h : Unbroken text) : cr ∉ text ∧ lf ∉ text :=
  ⟨fun hcr => absurd (h cr hcr) (by decide), fun hlf => absurd (h lf hlf) (by decide)⟩

/-- The first line and what follows it. The first line break has to be the end of the line. -/
def line? (bs : Bytes) : Option (Bytes × Bytes) :=
  ((bs.dropWhile (!isBreak ·)).dropPrefix? crlf).map (bs.takeWhile (!isBreak ·), ·)

theorem dropPrefix?_crlf_eq_some_iff {bs rest : Bytes} :
    bs.dropPrefix? crlf = some rest ↔ bs = crlf ++ rest := by
  simp [List.dropPrefix?_eq_some_iff]

theorem line?_eq_some_iff {bs text rest : Bytes} :
    line? bs = some (text, rest) ↔ bs = text ++ (crlf ++ rest) ∧ Unbroken text := by
  simp only [line?, Option.map_eq_some_iff, dropPrefix?_crlf_eq_some_iff, Prod.mk.injEq]
  constructor
  · rintro ⟨_, hrest, rfl, rfl⟩
    refine ⟨?_, ?_⟩
    · rw [← hrest, List.takeWhile_append_dropWhile]
    · intro b hb
      simpa using List.mem_takeWhile_imp hb
  · rintro ⟨rfl, htext⟩
    have hplain : ∀ b ∈ text, (!isBreak b) = true := by simpa [Unbroken] using htext
    refine ⟨rest, ?_, ?_, rfl⟩
    · rw [List.dropWhile_append_of_pos hplain]
      rfl
    · rw [List.takeWhile_append_of_pos hplain]
      simp [crlf, isBreak]

theorem unbroken_map_unbroken (text : Bytes) : Unbroken (text.map Encoding.unbroken) := by
  intro b hb
  obtain ⟨c, -, rfl⟩ := List.mem_map.1 hb
  simp only [Encoding.unbroken, isBreak]
  split
  · decide
  · next h => simpa [not_or] using h

end Bytes

namespace Decimal

/-- The number that a row of digits stands for, however large. -/
def number? (digits : Bytes) : Option Nat :=
  if !digits.isEmpty && digits.all fun b => IsDigit b then some (value digits) else none

/-- A number that may have a sign. -/
def signed? : Bytes → Option Int
  | [] => none
  | sign :: digits =>
    if sign = 45 then (number? digits).map fun n => -n
    else if sign = 43 then (number? digits).map fun n => n
    else (number? (sign :: digits)).map fun n => n

theorem number?_encode (n : Nat) : number? (encode n) = some n := by
  obtain ⟨hne, hdigits, hvalue⟩ := value_encode n
  have hnumeral : (!(encode n).isEmpty && (encode n).all fun b => IsDigit b) = true := by
    simpa [hne] using hdigits
  rw [number?, if_pos hnumeral, hvalue]

/-- A numeral begins with a digit and not with a sign. -/
theorem exists_encode_eq_cons (n : Nat) : ∃ b digits, encode n = b :: digits ∧ IsDigit b := by
  obtain ⟨hne, hdigits, -⟩ := value_encode n
  obtain ⟨b, digits, heq⟩ := List.exists_cons_of_ne_nil hne
  exact ⟨b, digits, heq, hdigits b (heq ▸ List.mem_cons_self)⟩

theorem signed?_encode (n : Nat) : signed? (encode n) = some (n : Int) := by
  obtain ⟨b, digits, heq, hdigit⟩ := exists_encode_eq_cons n
  have hminus : b ≠ 45 := fun h => absurd (h ▸ hdigit) (by decide)
  have hplus : b ≠ 43 := fun h => absurd (h ▸ hdigit) (by decide)
  have hnumber := number?_encode n
  rw [heq] at hnumber ⊢
  rw [signed?, if_neg hminus, if_neg hplus, hnumber]
  rfl

theorem encode_ne_minus_one (n : Nat) : encode n ≠ Bytes.ascii "-1" := by
  obtain ⟨b, digits, heq, hdigit⟩ := exists_encode_eq_cons n
  intro h
  obtain ⟨rfl, -⟩ := List.cons.inj (heq.symm.trans h)
  exact absurd hdigit (by decide)

theorem unbroken_encode (n : Nat) : Bytes.Unbroken (encode n) := by
  obtain ⟨-, hdigits, -⟩ := value_encode n
  intro b hb
  have hdigit := hdigits b hb
  have hne : b ≠ Bytes.cr ∧ b ≠ Bytes.lf :=
    ⟨fun h => absurd (h ▸ hdigit) (by decide), fun h => absurd (h ▸ hdigit) (by decide)⟩
  simpa [Bytes.isBreak] using hne

end Decimal

/-! ### Values -/

/-- A value on the wire. -/
inductive Value
  /-- A line that reports a success. -/
  | success (text : Bytes)
  /-- A line that reports an error. -/
  | error (text : Bytes)
  | integer (n : Int)
  /-- A bulk string. -/
  | bulk (payload : Bytes)
  /-- The value that stands for none. -/
  | absent
  | array (items : List Value)

namespace Value

/-- What the first line of a value says. -/
inductive Heading
  /-- The line is the whole value. -/
  | whole (v : Value)
  /-- A payload of so many bytes follows. -/
  | payload (size : Nat)
  /-- So many items follow. -/
  | items (count : Nat)

/-- The meaning of a first line. -/
def heading? (mark : UInt8) (text : Bytes) : Option Heading :=
  if mark = Encoding.successMark then some (.whole (.success text))
  else if mark = Encoding.errorMark then some (.whole (.error text))
  else if mark = Encoding.integerMark then (Decimal.signed? text).map (.whole <| .integer ·)
  else if mark = Encoding.bulkMark then
    if text = Bytes.ascii "-1" then some (.whole .absent) else (Decimal.number? text).map .payload
  else if mark = Encoding.arrayMark then
    if text = Bytes.ascii "-1" then some (.whole .absent) else (Decimal.number? text).map .items
  else none

/-- What the beginning of a value comes to. -/
inductive Opening
  /-- It is the whole value. -/
  | whole (v : Value)
  /-- It opens an array, and so many items follow. -/
  | items (count : Nat)

/-- Reads on after the first line of a value. -/
def Heading.follow? (bs : Bytes) : Heading → Option (Opening × Bytes)
  | .whole v => some (.whole v, bs)
  | .payload size => ((bs.drop size).dropPrefix? Bytes.crlf).map (.whole (.bulk (bs.take size)), ·)
  | .items count => some (.items count, bs)

/-- Reads the beginning of a value: its first line, and the payload of a bulk string. -/
def open? : Bytes → Option (Opening × Bytes)
  | [] => none
  | mark :: bs => do
    let (text, rest) ← Bytes.line? bs
    let heading ← heading? mark text
    heading.follow? rest

theorem open?_line (mark : UInt8) {text : Bytes} (h : Bytes.Unbroken text) (rest : Bytes) :
    open? (mark :: text ++ Bytes.crlf ++ rest) =
      (heading? mark text).bind fun heading => heading.follow? rest := by
  have hline : Bytes.line? (text ++ (Bytes.crlf ++ rest)) = some (text, rest) :=
    Bytes.line?_eq_some_iff.2 ⟨rfl, h⟩
  rw [List.append_assoc, List.cons_append, open?, hline]
  rfl

theorem follow?_payload (payload rest : Bytes) :
    (Heading.payload payload.length).follow? (payload ++ Bytes.crlf ++ rest) =
      some (.whole (.bulk payload), rest) := by
  have hrest : List.dropPrefix? (Bytes.crlf ++ rest) Bytes.crlf = some rest :=
    Bytes.dropPrefix?_crlf_eq_some_iff.2 rfl
  rw [List.append_assoc, Heading.follow?, List.drop_left, List.take_left, hrest]
  rfl

/-- What follows a first line depends on no bytes behind it. -/
theorem Heading.exists_of_follow? {heading : Heading} {bs rest : Bytes} {o : Opening}
    (h : heading.follow? bs = some (o, rest)) :
    ∃ front, bs = front ++ rest ∧ ∀ more, heading.follow? (front ++ more) = some (o, more) := by
  cases heading with
  | whole v =>
    cases h
    exact ⟨[], rfl, fun _ => rfl⟩
  | items count =>
    cases h
    exact ⟨[], rfl, fun _ => rfl⟩
  | payload size =>
    obtain ⟨after, hafter, h⟩ := Option.map_eq_some_iff.1 h
    cases h
    have hdrop := Bytes.dropPrefix?_crlf_eq_some_iff.1 hafter
    have hsize : (bs.take size).length = size := by
      have := congrArg List.length hdrop
      simp only [List.length_drop, List.length_append, Bytes.length_crlf] at this
      rw [List.length_take]
      omega
    refine ⟨bs.take size ++ Bytes.crlf, ?_, fun more => ?_⟩
    · rw [List.append_assoc, ← hdrop, List.take_append_drop]
    · have := follow?_payload (bs.take size) more
      rwa [hsize] at this

/-- What opens a value depends on no bytes behind it. -/
theorem exists_of_open? {bs rest : Bytes} {o : Opening} (h : open? bs = some (o, rest)) :
    ∃ front, front ≠ [] ∧ bs = front ++ rest ∧ ∀ more, open? (front ++ more) = some (o, more) := by
  cases bs with
  | nil => cases h
  | cons mark bs =>
    simp only [open?, Option.bind_eq_bind, Option.bind_eq_some_iff] at h
    obtain ⟨⟨text, after⟩, hline, heading, hheading, hfollow⟩ := h
    obtain ⟨rfl, htext⟩ := Bytes.line?_eq_some_iff.1 hline
    obtain ⟨front, rfl, hfront⟩ := Heading.exists_of_follow? hfollow
    refine ⟨mark :: text ++ Bytes.crlf ++ front, List.cons_ne_nil _ _, by simp, fun more => ?_⟩
    rw [List.append_assoc, open?_line mark htext, hheading]
    exact hfront more

theorem length_lt_of_open? {bs rest : Bytes} {o : Opening} (h : open? bs = some (o, rest)) :
    rest.length < bs.length := by
  obtain ⟨front, hfront, rfl, -⟩ := exists_of_open? h
  have := List.length_pos_iff.2 hfront
  rw [List.length_append]
  omega

/-- Reads so many values, and tells what follows them. Each value takes at least one byte. -/
def readMany (count : Nat) (bs : Bytes) :
    Option (List Value × { rest : Bytes // rest.length + count ≤ bs.length }) :=
  match count with
  | 0 => some ([], ⟨bs, Nat.le_refl _⟩)
  | count + 1 =>
    match h : open? bs with
    | none => none
    | some (.whole v, rest) =>
      match readMany count rest with
      | none => none
      | some (vs, ⟨rest', hle⟩) =>
        some (v :: vs, ⟨rest', by have := length_lt_of_open? h; omega⟩)
    | some (.items n, rest) =>
      match readMany n rest with
      | none => none
      | some (items, ⟨rest₁, h₁⟩) =>
        match readMany count rest₁ with
        | none => none
        | some (vs, ⟨rest₂, h₂⟩) =>
          some (.array items :: vs, ⟨rest₂, by have := length_lt_of_open? h; omega⟩)
termination_by bs.length
decreasing_by
  · exact length_lt_of_open? h
  · exact length_lt_of_open? h
  · have := length_lt_of_open? h
    omega

/-- Reads so many values, and tells what follows them. -/
def read? (count : Nat) (bs : Bytes) : Option (List Value × Bytes) :=
  (readMany count bs).map fun r => (r.1, r.2)

@[simp] theorem read?_zero (bs : Bytes) : read? 0 bs = some ([], bs) := by
  simp [read?, readMany]

theorem read?_succ (count : Nat) (bs : Bytes) :
    read? (count + 1) bs = (open? bs).bind fun
      | (.whole v, rest) => (read? count rest).map fun (vs, rest) => (v :: vs, rest)
      | (.items n, rest) => (read? n rest).bind fun (items, rest) =>
          (read? count rest).map fun (vs, rest) => (.array items :: vs, rest) := by
  rw [read?, readMany]
  split
  · next hopen => simp [hopen]
  · next v rest hopen =>
    simp only [hopen, Option.bind_some, read?]
    cases readMany count rest <;> rfl
  · next n rest hopen =>
    simp only [hopen, Option.bind_some, read?]
    cases readMany n rest with
    | none => rfl
    | some r =>
      obtain ⟨items, rest₁, hle⟩ := r
      simp only [Option.map_some, Option.bind_some]
      cases readMany count rest₁ <;> rfl

theorem length_le_of_read? {count : Nat} {bs rest : Bytes} {vs : List Value}
    (h : read? count bs = some (vs, rest)) : rest.length + count ≤ bs.length := by
  obtain ⟨r, -, hr⟩ := Option.map_eq_some_iff.1 h
  cases hr
  exact r.2.2

/-- **What was read is read again whatever follows.** -/
theorem read?_append {count : Nat} {bs rest : Bytes} {vs : List Value}
    (h : read? count bs = some (vs, rest)) (more : Bytes) :
    read? count (bs ++ more) = some (vs, rest ++ more) := by
  induction hn : bs.length using Nat.strong_induction_on generalizing count bs vs rest with
  | _ n ih =>
    cases count with
    | zero =>
      rw [read?_zero] at h ⊢
      cases h
      rfl
    | succ count =>
      rw [read?_succ, Option.bind_eq_some_iff] at h
      obtain ⟨⟨o, rest₁⟩, hopen, h⟩ := h
      have hlt := length_lt_of_open? hopen
      obtain ⟨front, -, rfl, hfront⟩ := exists_of_open? hopen
      rw [read?_succ, List.append_assoc, hfront, Option.bind_some]
      cases o with
      | whole v =>
        obtain ⟨⟨vs, rest₂⟩, hvs, h⟩ := Option.map_eq_some_iff.1 h
        cases h
        have hvs' := ih _ (hn ▸ hlt) hvs rfl
        simp [hvs']
      | items k =>
        obtain ⟨⟨items, rest₂⟩, hitems, h⟩ := Option.bind_eq_some_iff.1 h
        obtain ⟨⟨vs, rest₃⟩, hvs, h⟩ := Option.map_eq_some_iff.1 h
        cases h
        have hle := length_le_of_read? hitems
        have hitems' := ih _ (hn ▸ hlt) hitems rfl
        have hvs' := ih _ (by omega) hvs rfl
        simp [hitems', hvs']

/-- The first value, and what follows it. -/
def first? (bs : Bytes) : Option (Value × Bytes) :=
  (read? 1 bs).bind fun (vs, rest) => vs.head?.map (·, rest)

theorem length_lt_of_first? {bs rest : Bytes} {v : Value} (h : first? bs = some (v, rest)) :
    rest.length < bs.length := by
  obtain ⟨⟨vs, rest'⟩, hread, h⟩ := Option.bind_eq_some_iff.1 h
  obtain ⟨v', -, h⟩ := Option.map_eq_some_iff.1 h
  cases h
  exact length_le_of_read? hread

theorem first?_append {bs rest : Bytes} {v : Value} (h : first? bs = some (v, rest))
    (more : Bytes) : first? (bs ++ more) = some (v, rest ++ more) := by
  obtain ⟨⟨vs, rest'⟩, hread, h⟩ := Option.bind_eq_some_iff.1 h
  obtain ⟨v', hhead, h⟩ := Option.map_eq_some_iff.1 h
  cases h
  simp [first?, read?_append hread, hhead]

/-- Reads values until the bytes are used up. -/
def readAll (bs : Bytes) : Option (List Value) :=
  if bs = [] then some []
  else
    match _h : first? bs with
    | none => none
    | some (v, rest) => (readAll rest).map (v :: ·)
termination_by bs.length
decreasing_by exact length_lt_of_first? _h

theorem readAll_cons {bs rest : Bytes} {v : Value} (h : first? bs = some (v, rest)) :
    readAll bs = (readAll rest).map (v :: ·) := by
  have hne : bs ≠ [] := fun hnil => absurd (hnil ▸ length_lt_of_first? h) (Nat.not_lt_zero _)
  rw [readAll, if_neg hne]
  split
  · next hnone => cases hnone.symm.trans h
  · next heq =>
    cases heq.symm.trans h
    rfl

/-! ### Written values -/

/-- The bytes are one complete value: reading them uses all of them up, and reading a beginning of
them finds no value. -/
structure IsWhole (bs : Bytes) (v : Value) : Prop where
  first?_eq : first? bs = some (v, [])
  cut : ∀ part, Bytes.IsCut part bs → first? part = none

/-- The bytes are read as the value, whatever follows them. -/
def Reads (bs : Bytes) (v : Value) : Prop :=
  ∀ count rest, read? (count + 1) (bs ++ rest) =
    (read? count rest).map fun (vs, rest) => (v :: vs, rest)

variable {bs : Bytes} {v : Value} {parts : List Bytes} {vs : List Value}

theorem Reads.first? (h : Reads bs v) (rest : Bytes) :
    Value.first? (bs ++ rest) = some (v, rest) := by
  rw [Value.first?, h 0 rest, read?_zero]
  rfl

theorem Reads.isWhole (h : Reads bs v) : IsWhole bs v := by
  have hfirst := h.first? []
  rw [List.append_nil] at hfirst
  refine ⟨hfirst, ?_⟩
  intro part hcut
  obtain ⟨⟨more, rfl⟩, hlt⟩ := hcut
  cases hpart : Value.first? part with
  | none => rfl
  | some r =>
    -- the bytes that the cut takes away would be left over
    have hlong := first?_append hpart more
    rw [hfirst, Option.some.injEq, Prod.mk.injEq] at hlong
    have hnil := List.append_eq_nil_iff.1 hlong.2.symm
    rw [hnil.2, List.append_nil] at hlt
    exact absurd hlt (Nat.lt_irrefl _)

theorem read?_flatten (h : List.Forall₂ Reads parts vs) (rest : Bytes) :
    read? vs.length (parts.flatten ++ rest) = some (vs, rest) := by
  induction h with
  | nil => exact read?_zero rest
  | cons hfirst _ ih =>
    rw [List.flatten_cons, List.append_assoc, List.length_cons, hfirst, ih]
    rfl

/-- **Values that stand one after another are read one after another.** -/
theorem readAll_flatten (h : List.Forall₂ Reads parts vs) : readAll parts.flatten = some vs := by
  induction h with
  | nil => rw [List.flatten_nil, readAll, if_pos rfl]
  | cons hfirst _ ih =>
    rw [List.flatten_cons, readAll_cons (hfirst.first? _), ih]
    rfl

theorem reads_of_open? (h : ∀ rest, open? (bs ++ rest) = some (.whole v, rest)) : Reads bs v := by
  intro count rest
  rw [read?_succ, h]
  rfl

theorem reads_success (text : Bytes) :
    Reads (Encoding.line Encoding.successMark text) (.success (text.map Encoding.unbroken)) :=
  reads_of_open? fun rest => open?_line _ (Bytes.unbroken_map_unbroken text) rest

theorem reads_error (text : Bytes) :
    Reads (Encoding.line Encoding.errorMark text) (.error (text.map Encoding.unbroken)) :=
  reads_of_open? fun rest => open?_line _ (Bytes.unbroken_map_unbroken text) rest

theorem reads_absent : Reads Encoding.absent .absent := by
  have hunbroken : Bytes.Unbroken (Bytes.ascii "-1") := by decide +kernel
  exact reads_of_open? fun rest => open?_line Encoding.bulkMark hunbroken rest

theorem heading?_integer (n : Nat) :
    heading? Encoding.integerMark (Decimal.encode n) = some (.whole (.integer n)) := by
  have hmark : Encoding.integerMark ≠ Encoding.successMark ∧
      Encoding.integerMark ≠ Encoding.errorMark := by decide
  rw [heading?, if_neg hmark.1, if_neg hmark.2, if_pos rfl, Decimal.signed?_encode]
  rfl

theorem heading?_bulk (size : Nat) :
    heading? Encoding.bulkMark (Decimal.encode size) = some (.payload size) := by
  have hmark : Encoding.bulkMark ≠ Encoding.successMark ∧
      Encoding.bulkMark ≠ Encoding.errorMark ∧ Encoding.bulkMark ≠ Encoding.integerMark := by decide
  rw [heading?, if_neg hmark.1, if_neg hmark.2.1, if_neg hmark.2.2, if_pos rfl,
    if_neg (Decimal.encode_ne_minus_one size), Decimal.number?_encode]
  rfl

theorem heading?_array (count : Nat) :
    heading? Encoding.arrayMark (Decimal.encode count) = some (.items count) := by
  have hmark : Encoding.arrayMark ≠ Encoding.successMark ∧
      Encoding.arrayMark ≠ Encoding.errorMark ∧ Encoding.arrayMark ≠ Encoding.integerMark ∧
      Encoding.arrayMark ≠ Encoding.bulkMark := by decide
  rw [heading?, if_neg hmark.1, if_neg hmark.2.1, if_neg hmark.2.2.1, if_neg hmark.2.2.2,
    if_pos rfl, if_neg (Decimal.encode_ne_minus_one count), Decimal.number?_encode]
  rfl

theorem reads_integer (n : Nat) : Reads (Encoding.integer n) (.integer n) := by
  refine reads_of_open? fun rest => ?_
  rw [Encoding.integer, open?_line _ (Decimal.unbroken_encode n), heading?_integer]
  rfl

theorem reads_bulk (payload : Bytes) : Reads (Encoding.bulk payload) (.bulk payload) := by
  refine reads_of_open? fun rest => ?_
  have hopen := open?_line Encoding.bulkMark (Decimal.unbroken_encode payload.length)
    (payload ++ Bytes.crlf ++ rest)
  rw [heading?_bulk, Option.bind_some, follow?_payload] at hopen
  rw [Encoding.bulk, ← hopen]
  simp

/-- An array is read item by item. -/
theorem reads_array (h : List.Forall₂ Reads parts vs) :
    Reads (Encoding.array parts) (.array vs) := by
  intro count rest
  have hopen := open?_line Encoding.arrayMark (Decimal.unbroken_encode parts.length)
    (parts.flatten ++ rest)
  rw [heading?_array, Option.bind_some, ← List.append_assoc] at hopen
  rw [Encoding.array, read?_succ, hopen, h.length_eq, Heading.follow?, Option.bind_some]
  dsimp only
  rw [read?_flatten h, Option.bind_some]

end Value
end RespStore
