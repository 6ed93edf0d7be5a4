import Mathlib.Data.Nat.Digits.Defs
import Mathlib.Tactic.Ring
import RespStore.Wire.Header

/-!
# RespStore.Proofs.Wire.Header

What the header of a frame means, apart from how it is read. `Decimal.Denotes` gives the number
that a row of digits stands for by its positional value, and `Wire.headerLine` is the line that a
sender writes around it.

`header_headerLine` and `header_eq_found` say that reading a header finds exactly such lines.
`header_of_cut` says what becomes of a line that has not arrived as a whole: it is waited for as
long as no more than `maxOpenHeader` bytes of it are there, and refused from then on.
-/

namespace RespStore

/-! ### Numerals -/

namespace Decimal

/-- The byte is a decimal digit. -/
def IsDigit (b : UInt8) : Prop := 48 ≤ b ∧ b ≤ 57

instance : DecidablePred IsDigit := fun _ => inferInstanceAs (Decidable (_ ∧ _))

/-- The positional value of a row of digits, the most significant first. -/
def value (digits : Bytes) : Nat :=
  Nat.ofDigits 10 (digits.reverse.map fun b => b.toNat - 48)

/-- The row of digits is a numeral of a 64-bit number. Leading zeros are digits like others. -/
structure Denotes (digits : Bytes) (n : Nat) : Prop where
  nonempty : digits ≠ []
  decimal : ∀ b ∈ digits, IsDigit b
  value_eq : value digits = n
  fits : n < Word.size

theorem denotes_iff {digits : Bytes} {n : Nat} :
    Denotes digits n ↔
      digits ≠ [] ∧ (∀ b ∈ digits, IsDigit b) ∧ value digits = n ∧ n < Word.size :=
  ⟨fun h => ⟨h.1, h.2, h.3, h.4⟩, fun h => ⟨h.1, h.2.1, h.2.2.1, h.2.2.2⟩⟩

-- the digits are looked at one by one, where a search through all bytes would do as well
instance (digits : Bytes) (n : Nat) : Decidable (Denotes digits n) :=
  have : Decidable (∀ b ∈ digits, IsDigit b) := List.decidableBAll IsDigit digits
  decidable_of_iff _ denotes_iff.symm

@[simp] theorem value_nil : value [] = 0 := rfl

theorem value_cons (b : UInt8) (digits : Bytes) :
    value (b :: digits) = (b.toNat - 48) * 10 ^ digits.length + value digits := by
  simp only [value, List.reverse_cons, List.map_append, Nat.ofDigits_append, List.length_map,
    List.length_reverse, List.map_cons, List.map_nil, Nat.ofDigits_singleton]
  ring

theorem extend?_eq_some_iff {value n : Nat} {b : UInt8} :
    extend? value b = some n ↔
      IsDigit b ∧ n = value * 10 + (b.toNat - 48) ∧ n < Word.size := by
  simp only [extend?, digit?, IsDigit, Option.bind_eq_bind, Option.bind_eq_some_iff,
    Bool.and_eq_true, decide_eq_true_eq]
  constructor
  · intro hex
    obtain ⟨d, hd, hn⟩ := hex
    split at hd
    · next hdigit =>
      cases hd
      split at hn
      · next hlt => cases hn; exact ⟨hdigit, rfl, hlt⟩
      · cases hn
    · cases hd
  · intro hex
    obtain ⟨hdigit, rfl, hlt⟩ := hex
    exact ⟨b.toNat - 48, if_pos hdigit, if_pos hlt⟩

/-- Reading on from a value gives the value of the longer numeral. The check against the word at
every digit is the same as one check at the end, because the values only grow. -/
theorem foldlM_extend?_eq_some_iff {digits : Bytes} {start n : Nat} (h : start < Word.size) :
    digits.foldlM extend? start = some n ↔
      (∀ b ∈ digits, IsDigit b) ∧ n = start * 10 ^ digits.length + value digits ∧
        n < Word.size := by
  induction digits generalizing start with
  | nil =>
    simp only [List.foldlM_nil, Option.pure_def, Option.some.injEq, List.not_mem_nil,
      false_implies, implies_true, List.length_nil, pow_zero, mul_one, value_nil, add_zero,
      true_and]
    exact ⟨fun hn => ⟨hn.symm, hn ▸ h⟩, fun hn => hn.1.symm⟩
  | cons b digits ih =>
    have hvalue (d : Nat) : (start * 10 + d) * 10 ^ digits.length + value digits =
        start * 10 ^ (digits.length + 1) + (d * 10 ^ digits.length + value digits) := by ring
    simp only [List.foldlM_cons, Option.bind_eq_bind, Option.bind_eq_some_iff,
      List.forall_mem_cons, List.length_cons, value_cons]
    constructor
    · intro hex
      obtain ⟨next, hnext, hrest⟩ := hex
      obtain ⟨hdigit, rfl, hlt⟩ := extend?_eq_some_iff.1 hnext
      obtain ⟨hdigits, rfl, hn⟩ := (ih hlt).1 hrest
      exact ⟨⟨hdigit, hdigits⟩, hvalue _, hn⟩
    · rintro ⟨⟨hdigit, hdigits⟩, hn, hlt⟩
      rw [← hvalue] at hn
      have hgrow : start * 10 + (b.toNat - 48) ≤ n :=
        calc start * 10 + (b.toNat - 48)
            ≤ (start * 10 + (b.toNat - 48)) * 10 ^ digits.length :=
              Nat.le_mul_of_pos_right _ (by positivity)
          _ ≤ n := by omega
      have hnext : start * 10 + (b.toNat - 48) < Word.size := Nat.lt_of_le_of_lt hgrow hlt
      exact ⟨_, extend?_eq_some_iff.2 ⟨hdigit, rfl, hnext⟩, (ih hnext).2 ⟨hdigits, hn, hlt⟩⟩

/-- A non-empty row of bytes is read as the number that it denotes, and as none if it denotes
none. -/
theorem decode?_eq_some_iff {digits : Bytes} {n : Nat} (h : digits ≠ []) :
    decode? digits = some n ↔ Denotes digits n := by
  rw [decode?, foldlM_extend?_eq_some_iff (by decide)]
  simp only [Nat.zero_mul, Nat.zero_add]
  exact ⟨fun ⟨hd, hn, hlt⟩ => ⟨h, hd, hn.symm, hlt⟩, fun hn => ⟨hn.2, hn.3.symm, hn.4⟩⟩

/-- No digit ends a line. -/
theorem Denotes.cr_notMem {digits : Bytes} {n : Nat} (h : Denotes digits n) :
    Bytes.cr ∉ digits := fun hcr => absurd (h.decimal _ hcr) (by decide)

/-- A numeral denotes one number. -/
theorem Denotes.unique {digits : Bytes} {m n : Nat} (hm : Denotes digits m)
    (hn : Denotes digits n) : m = n := hm.value_eq.symm.trans hn.value_eq

/-- Zeros in front of a numeral make no difference. -/
theorem Denotes.zeros_append {digits : Bytes} {n : Nat} (h : Denotes digits n) (count : Nat) :
    Denotes (List.replicate count 48 ++ digits) n := by
  have hvalue : value (List.replicate count 48 ++ digits) = value digits := by
    induction count with
    | zero => rfl
    | succ count ih =>
      rw [List.replicate_succ, List.cons_append, value_cons, ih]
      show 0 * _ + _ = _
      rw [Nat.zero_mul, Nat.zero_add]
  refine ⟨List.append_ne_nil_of_right_ne_nil _ h.nonempty, ?_, hvalue.trans h.value_eq, h.fits⟩
  intro b hb
  rcases List.mem_append.1 hb with hzero | hdigit
  · rw [List.eq_of_mem_replicate hzero]
    decide
  · exact h.decimal b hdigit

theorem value_append_singleton (digits : Bytes) (b : UInt8) :
    value (digits ++ [b]) = value digits * 10 + (b.toNat - 48) := by
  simp only [value, List.reverse_append, List.reverse_singleton, List.singleton_append,
    List.map_cons, Nat.ofDigits_cons]
  ring

/-- The numeral of a number is that of its tenth with one more digit. -/
theorem encode_eq (n : Nat) :
    encode n = (if n < 10 then [] else encode (n / 10)) ++ [(48 + n % 10).toUInt8] := by
  have hdigit : ∀ d < 10, (Nat.digitChar d).toNat.toUInt8 = (48 + d).toUInt8 := by decide
  unfold encode
  rw [Nat.toDigits_eq_if (by decide)]
  split
  · next hlt => rw [List.map_singleton, hdigit n hlt, Nat.mod_eq_of_lt hlt, List.nil_append]
  · rw [List.map_append, List.map_singleton, hdigit _ (Nat.mod_lt n (by decide))]

/-- A numeral takes a tenth of its number of digits, and one more, at most. -/
theorem length_encode_le (n : Nat) : (encode n).length ≤ n / 10 + 1 := by
  induction n using Nat.strong_induction_on with
  | _ n ih =>
    rw [encode_eq, List.length_append, List.length_singleton]
    split
    · exact Nat.le_add_left ..
    · next hlarge =>
      have := ih (n / 10) (by omega)
      omega

/-- A number is written in decimal digits, and they have its value. -/
theorem value_encode (n : Nat) :
    encode n ≠ [] ∧ (∀ b ∈ encode n, IsDigit b) ∧ value (encode n) = n := by
  have hbyte : ∀ d < 10, IsDigit (48 + d).toUInt8 ∧ (48 + d).toUInt8.toNat - 48 = d := by decide
  have hlast := hbyte (n % 10) (Nat.mod_lt n (by decide))
  induction n using Nat.strong_induction_on with
  | _ n ih =>
    rw [encode_eq]
    split
    · next hlt =>
      refine ⟨List.cons_ne_nil _ _, by simpa using hlast.1, ?_⟩
      rw [value_append_singleton, hlast.2, Nat.mod_eq_of_lt hlt, value_nil, Nat.zero_mul,
        Nat.zero_add]
    · obtain ⟨hne, hdigits, hvalue⟩ := ih (n / 10) (by omega) (hbyte _ (Nat.mod_lt _ (by decide)))
      refine ⟨List.append_ne_nil_of_left_ne_nil hne _, ?_, ?_⟩
      · exact List.forall_mem_append.2 ⟨hdigits, by simpa using hlast.1⟩
      · rw [value_append_singleton, hvalue, hlast.2, Nat.div_add_mod']

/-- **A number is written as a numeral that denotes it.** -/
theorem denotes_encode {n : Nat} (h : n < Word.size) : Denotes (encode n) n := by
  obtain ⟨hne, hdigits, hvalue⟩ := value_encode n
  exact ⟨hne, hdigits, hvalue, h⟩

end Decimal

namespace Bytes

/-! ### Cuts -/

/-- What has arrived of `whole` when the last of it has not. -/
def IsCut (part whole : Bytes) : Prop := part <+: whole ∧ part.length < whole.length

theorem not_isCut_nil (part : Bytes) : ¬IsCut part [] := fun h => Nat.not_lt_zero _ h.2

theorem isCut_nil {whole : Bytes} (h : whole ≠ []) : IsCut [] whole :=
  ⟨List.nil_prefix, List.length_pos_iff.2 h⟩

/-- Of two pieces, a cut goes through the first or through the second. -/
theorem isCut_append_iff {part front back : Bytes} :
    IsCut part (front ++ back) ↔
      IsCut part front ∨ ∃ rest, part = front ++ rest ∧ IsCut rest back := by
  constructor
  · intro hex
    obtain ⟨hp, hlt⟩ := hex
    by_cases hshort : part.length < front.length
    · exact .inl ⟨List.prefix_of_prefix_length_le hp (List.prefix_append ..) hshort.le, hshort⟩
    · have hfront : front <+: part :=
        List.prefix_of_prefix_length_le (List.prefix_append ..) hp (Nat.le_of_not_lt hshort)
      obtain ⟨rest, rfl⟩ := hfront
      rw [List.length_append, List.length_append] at hlt
      exact .inr ⟨rest, rfl, (List.prefix_append_right_inj _).1 hp, by omega⟩
  · rintro (⟨hp, hlt⟩ | ⟨rest, rfl, hp, hlt⟩)
    · refine ⟨hp.trans (List.prefix_append ..), ?_⟩
      rw [List.length_append]
      omega
    · refine ⟨(List.prefix_append_right_inj _).2 hp, ?_⟩
      rw [List.length_append, List.length_append]
      omega

/-! ### Ends of lines -/

theorem crlfFrom_eq_map (passed : Nat) (bs : Bytes) :
    crlfFrom passed bs = (crlfAt? bs).map (passed + ·) := by
  unfold crlfAt?
  induction bs generalizing passed with
  | nil => rfl
  | cons a rest ih =>
    cases rest with
    | nil => rfl
    | cons b rest =>
      unfold crlfFrom
      split
      · rfl
      · rw [ih (passed + 1), ih (0 + 1), Option.map_map]
        congr 1
        funext n
        simp only [Function.comp]
        omega

theorem crlfAt?_cons_cons (a b : UInt8) (rest : Bytes) :
    crlfAt? (a :: b :: rest) =
      if a = cr ∧ b = lf then some 0 else (crlfAt? (b :: rest)).map (1 + ·) := by
  rw [← crlfFrom_eq_map]
  rfl

/-- A line ends at its first two bytes or after the first of them. -/
theorem crlf_infix_cons_cons {a b : UInt8} {rest : Bytes} :
    crlf <:+: a :: b :: rest ↔ (a = cr ∧ b = lf) ∨ crlf <:+: b :: rest := by
  rw [List.infix_cons_iff]
  simp only [crlf, List.cons_prefix_cons, List.nil_prefix, and_true, eq_comm]

/-- No end of a line reaches from the bytes before one into it. -/
theorem not_crlf_before_first {a b : UInt8} {line tail rest : Bytes}
    (hnone : ¬crlf <:+: a :: line) (htail : line ++ (crlf ++ rest) = b :: tail) :
    ¬(a = cr ∧ b = lf) := by
  cases line with
  | nil =>
    intro hab
    rw [← (List.cons.inj htail).1] at hab
    exact absurd hab.2 (by decide)
  | cons c line =>
    rw [crlf_infix_cons_cons, not_or] at hnone
    rw [← (List.cons.inj htail).1]
    exact hnone.1

/-- The first end of a line stands after bytes that hold none. -/
theorem crlfAt?_first_crlf {line : Bytes} (h : ¬crlf <:+: line) (rest : Bytes) :
    crlfAt? (line ++ (crlf ++ rest)) = some line.length := by
  induction line with
  | nil => rfl
  | cons a line ih =>
    have hline : ¬crlf <:+: line := fun hmem => h (hmem.trans (List.suffix_cons a line).isInfix)
    obtain ⟨b, tail, htail⟩ : ∃ b tail, line ++ (crlf ++ rest) = b :: tail := by
      cases line with
      | nil => exact ⟨_, _, rfl⟩
      | cons b line => exact ⟨_, _, rfl⟩
    rw [List.cons_append, htail, crlfAt?_cons_cons, if_neg (not_crlf_before_first h htail),
      ← htail, ih hline, List.length_cons, Option.map_some, Nat.add_comm]

theorem not_crlf_of_cr_notMem {line : Bytes} (h : cr ∉ line) : ¬crlf <:+: line :=
  fun hcrlf => h (hcrlf.subset (by decide))

/-- The first end of a line stands after bytes without a carriage return. -/
theorem crlfAt?_append_crlf {line : Bytes} (h : cr ∉ line) (rest : Bytes) :
    crlfAt? (line ++ (crlf ++ rest)) = some line.length :=
  crlfAt?_first_crlf (not_crlf_of_cr_notMem h) rest

/-- Where an end of a line is found, there is one. -/
theorem eq_of_crlfAt? {bs : Bytes} {n : Nat} (h : crlfAt? bs = some n) :
    ∃ rest, bs = bs.take n ++ (crlf ++ rest) := by
  induction bs generalizing n with
  | nil => cases h
  | cons a rest ih =>
    cases rest with
    | nil => cases h
    | cons b rest =>
      rw [crlfAt?_cons_cons] at h
      split at h
      · next hab =>
        cases h
        obtain ⟨rfl, rfl⟩ := hab
        exact ⟨rest, rfl⟩
      · obtain ⟨m, hm, rfl⟩ := Option.map_eq_some_iff.1 h
        obtain ⟨tail, htail⟩ := ih hm
        refine ⟨tail, ?_⟩
        rw [Nat.add_comm, List.take_succ_cons, List.cons_append, ← htail]

theorem crlfAt?_eq_none_iff {bs : Bytes} : crlfAt? bs = none ↔ ¬crlf <:+: bs := by
  induction bs with
  | nil => decide
  | cons a rest ih =>
    cases rest with
    | nil => exact iff_of_true rfl fun h => absurd h.length_le (by simp)
    | cons b rest =>
      rw [crlfAt?_cons_cons, crlf_infix_cons_cons, not_or, ← ih]
      split
      · next hab => exact iff_of_false nofun fun h => h.1 hab
      · next hab => rw [Option.map_eq_none_iff, and_iff_right hab]

theorem crlfAt?_add_two_le {bs : Bytes} {n : Nat} (h : crlfAt? bs = some n) :
    n + 2 ≤ bs.length := by
  obtain ⟨rest, hrest⟩ := eq_of_crlfAt? h
  have hlen := congrArg List.length hrest
  simp only [List.length_append, List.length_take, length_crlf] at hlen
  omega

/-- Further bytes do not change where the first end of a line is. -/
theorem crlfAt?_append {bs : Bytes} {n : Nat} (h : crlfAt? bs = some n) (rest : Bytes) :
    crlfAt? (bs ++ rest) = some n := by
  induction bs generalizing n with
  | nil => cases h
  | cons a tail ih =>
    cases tail with
    | nil => cases h
    | cons b tail =>
      rw [crlfAt?_cons_cons] at h
      rw [List.cons_append, List.cons_append, crlfAt?_cons_cons]
      split at h
      · next hab => rw [if_pos hab, h]
      · next hab =>
        obtain ⟨m, hm, rfl⟩ := Option.map_eq_some_iff.1 h
        rw [if_neg hab, ← List.cons_append, ih hm, Option.map_some]

/-- Before the first end of a line there is none. -/
theorem not_crlf_infix_take {bs : Bytes} {n : Nat} (h : crlfAt? bs = some n) :
    ¬crlf <:+: bs.take n := by
  rw [← crlfAt?_eq_none_iff]
  by_contra hsome
  obtain ⟨m, hm⟩ := Option.ne_none_iff_exists'.1 hsome
  have hlt : m + 2 ≤ n := Nat.le_trans (crlfAt?_add_two_le hm) (List.length_take_le ..)
  have hfirst := crlfAt?_append hm (bs.drop n)
  rw [List.take_append_drop, h, Option.some.injEq] at hfirst
  omega

end Bytes

/-! ### The header line -/

namespace Wire

/-- The line that opens a frame, with its mark and the digits of its number. -/
def headerLine (mark : UInt8) (digits : Bytes) : Bytes := mark :: (digits ++ Bytes.crlf)

/-- The error of a header that goes on for too long without ending. -/
def openHeader : FrameError := .badLength "length header is not terminated"

@[simp] theorem length_headerLine (mark : UInt8) (digits : Bytes) :
    (headerLine mark digits).length = 1 + digits.length + 2 := by
  simp only [headerLine, List.length_cons, List.length_append, Bytes.length_crlf]
  omega

/-- **Reading a header line finds its number**, whatever follows. -/
theorem header_headerLine {digits : Bytes} {n : Nat} (h : Decimal.Denotes digits n) (mark : UInt8)
    (rest : Bytes) :
    header (headerLine mark digits ++ rest) = .found n (headerLine mark digits).length := by
  have hcrlf := Bytes.crlfAt?_append_crlf h.cr_notMem rest
  have hempty : digits.isEmpty = false := by simpa using h.nonempty
  simp only [header, headerLine, List.cons_append, List.tail_cons, List.append_assoc, hcrlf,
    List.take_left, hempty, (Decimal.decode?_eq_some_iff h.nonempty).2 h, Bool.false_eq_true,
    if_false, Scan.found.injEq, true_and, Bytes.length_crlf, List.length_cons,
    List.length_append]
  omega

/-- **Where reading finds a number, there is a header line that denotes it.** -/
theorem header_eq_found {bs : Bytes} {n used : Nat} (h : header bs = .found n used) :
    ∃ mark digits rest, Decimal.Denotes digits n ∧ bs = headerLine mark digits ++ rest ∧
      used = (headerLine mark digits).length := by
  unfold header at h
  split at h
  · split at h <;> cases h
  · next stop hstop =>
    dsimp only at h
    split at h
    · cases h
    · next hne =>
      split at h
      · next value hvalue =>
        cases h
        have hne' : bs.tail.take stop ≠ [] := by simpa using hne
        obtain ⟨rest, hrest⟩ := Bytes.eq_of_crlfAt? hstop
        obtain ⟨mark, tail, rfl⟩ : ∃ mark tail, bs = mark :: tail := by
          cases bs with
          | nil => cases hstop
          | cons mark tail => exact ⟨mark, tail, rfl⟩
        rw [List.tail_cons] at hrest hvalue hne' ⊢
        refine ⟨mark, tail.take stop, rest, (Decimal.decode?_eq_some_iff hne').1 hvalue, ?_,
          (length_headerLine ..).symm⟩
        rw [headerLine, List.cons_append, List.append_assoc, ← hrest]
      · cases h

theorem header_used_le {bs : Bytes} {n used : Nat} (h : header bs = .found n used) :
    used ≤ bs.length := by
  obtain ⟨mark, digits, rest, -, rfl, rfl⟩ := header_eq_found h
  rw [List.length_append]
  exact Nat.le_add_right ..

/-- **A header line that was cut off is waited for while it is short.** Twenty digits and the first
byte of the line's end still count as short. -/
theorem header_of_cut {mark : UInt8} {digits part : Bytes} (h : Bytes.cr ∉ digits)
    (hcut : Bytes.IsCut part (headerLine mark digits)) :
    header part = if part.length ≤ maxOpenHeader then .incomplete else .failed openHeader := by
  have hnone : Bytes.crlfAt? part.tail = none := by
    by_contra hsome
    obtain ⟨n, hn⟩ := Option.ne_none_iff_exists'.1 hsome
    obtain ⟨⟨rest, hrest⟩, hlt⟩ := hcut
    cases part with
    | nil => cases hn
    | cons a tail =>
      -- the end of the line would stand where the whole line has it, so nothing would be missing
      have htail : tail ++ rest = digits ++ (Bytes.crlf ++ []) :=
        (List.cons.inj hrest).2.trans (by rw [List.append_nil])
      have hlast := Bytes.crlfAt?_append hn rest
      rw [List.tail_cons, htail, Bytes.crlfAt?_append_crlf h] at hlast
      have hlong := Bytes.crlfAt?_add_two_le hn
      rw [← Option.some.inj hlast, List.tail_cons] at hlong
      rw [length_headerLine, List.length_cons] at hlt
      omega
  have hfewer : part.hasFewer (maxOpenHeader + 1) = true ↔ part.length ≤ maxOpenHeader := by
    rw [Bytes.hasFewer_iff, Nat.lt_succ_iff]
  simp only [header, hnone]
  by_cases hshort : part.length ≤ maxOpenHeader
  · rw [if_pos hshort, if_neg (by simpa using hfewer.2 hshort)]
  · rw [if_neg hshort, if_pos (by simpa using mt hfewer.1 hshort)]
    rfl

end Wire
end RespStore
