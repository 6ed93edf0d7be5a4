import RespStore.Proofs.Wire.Header

/-!
# RespStore.Proofs.Wire.Numerals

The number in a header, for whatever bytes stand where a numeral should. These are the bytes between
the first one and the first end of a line after it (`exists_headerLine`); there may be any number of
them, and a carriage return or a line feed alone is a byte like others. Either they denote a number,
which is found, or they denote none, which is an error that shows them (`header_eq_found_iff`,
`header_eq_failed`). A number that is too large is among the latter, so it is never taken for a
smaller one.

A digit takes two steps, a product and a sum, and each has to stay in the word (`Decimal.push?`).
One check of the sum does the same, because the sum is no word where the product is none
(`Decimal.push?_eq`).
-/

namespace RespStore

namespace Decimal

/-- One more digit on the right of a numeral of value `value`, in two steps that are checked each. -/
def push? (value : Nat) (b : UInt8) : Option Nat := do
  let d ← digit? b
  let tenfold ← if value * 10 < Word.size then some (value * 10) else none
  if tenfold + d < Word.size then some (tenfold + d) else none

/-- **Checking both steps is checking the last.** -/
theorem push?_eq : push? = extend? := by
  funext value b
  cases hd : digit? b with
  | none =>
    rw [push?, extend?, hd]
    rfl
  | some d =>
    rw [push?, extend?, hd]
    by_cases hproduct : value * 10 < Word.size
    · simp only [if_pos hproduct, Option.bind_eq_bind, Option.bind_some]
    · have hsum : ¬value * 10 + d < Word.size := by omega
      simp only [if_neg hproduct, if_neg hsum, Option.bind_eq_bind, Option.bind_some,
        Option.bind_none]

end Decimal

namespace Wire

variable {digits : Bytes}

/-- Where a line ends after the first byte, the bytes begin with a header line. -/
theorem exists_headerLine {bs : Bytes} (h : Bytes.crlf <:+: bs.tail) :
    ∃ mark digits rest, ¬Bytes.crlf <:+: digits ∧ bs = headerLine mark digits ++ rest := by
  cases bs with
  | nil => exact absurd h (by decide)
  | cons mark tail =>
    rw [List.tail_cons] at h
    obtain ⟨n, hn⟩ := Option.ne_none_iff_exists'.1 (mt Bytes.crlfAt?_eq_none_iff.1 (not_not.2 h))
    obtain ⟨rest, hrest⟩ := Bytes.eq_of_crlfAt? hn
    refine ⟨mark, tail.take n, rest, Bytes.not_crlf_infix_take hn, ?_⟩
    rw [headerLine, List.cons_append, List.append_assoc, ← hrest]

/-- What reading comes to when the header has arrived. -/
theorem header_of_first_crlf (hfirst : ¬Bytes.crlf <:+: digits) (mark : UInt8) (rest : Bytes) :
    header (headerLine mark digits ++ rest) =
      if digits = [] then .failed (.badLength "empty")
      else
        (Decimal.decode? digits).elim (.failed (.badLength (Utf8.lossy digits))) fun n =>
          .found n (1 + digits.length + 2) := by
  have hcrlf := Bytes.crlfAt?_first_crlf hfirst rest
  simp only [header, headerLine, List.cons_append, List.tail_cons, List.append_assoc, hcrlf,
    List.take_left, List.isEmpty_iff, Bytes.length_crlf]
  cases Decimal.decode? digits <;> rfl

/-- **What is found in a header** is the number that its bytes denote. -/
theorem header_eq_found_iff (hfirst : ¬Bytes.crlf <:+: digits) {mark : UInt8} {rest : Bytes}
    {n used : Nat} :
    header (headerLine mark digits ++ rest) = .found n used ↔
      Decimal.Denotes digits n ∧ used = 1 + digits.length + 2 := by
  constructor
  · intro hfound
    rw [header_of_first_crlf hfirst] at hfound
    split at hfound
    · cases hfound
    · next hne =>
      cases hdecode : Decimal.decode? digits with
      | none =>
        rw [hdecode] at hfound
        cases hfound
      | some value =>
        rw [hdecode] at hfound
        cases hfound
        exact ⟨(Decimal.decode?_eq_some_iff hne).1 hdecode, rfl⟩
  · intro hdenotes
    rw [header_headerLine hdenotes.1, length_headerLine, hdenotes.2]

/-- **A header without a number** is refused. -/
theorem header_eq_failed (hfirst : ¬Bytes.crlf <:+: digits)
    (hnone : ∀ n, ¬Decimal.Denotes digits n) (mark : UInt8) (rest : Bytes) :
    header (headerLine mark digits ++ rest) =
      .failed (.badLength (if digits = [] then "empty" else Utf8.lossy digits)) := by
  rw [header_of_first_crlf hfirst]
  by_cases hempty : digits = []
  · rw [if_pos hempty, if_pos hempty]
  · have hdecode : Decimal.decode? digits = none := by
      rw [Option.eq_none_iff_forall_ne_some]
      intro n hn
      exact hnone n ((Decimal.decode?_eq_some_iff hempty).1 hn)
    rw [if_neg hempty, if_neg hempty, hdecode, Option.elim_none]

/-- **A header is read as the number that it shows, or refused.** Bytes with an end of a line after
the first of them begin with a header line. If what it has for a numeral is not empty, all decimal
digits, however many, and of a value below the size of a word, that is the number that is found, and
the header takes these bytes and three more. Otherwise there is an error that shows them, or says that
there are none; and a value that is no word is never wrapped. Each number below the size of a word is
found where its numeral is written. Checking both steps that a digit takes comes to the same. -/
theorem header_exact :
    (∀ bs : Bytes, Bytes.crlf <:+: bs.tail →
      ∃ mark digits rest, ¬Bytes.crlf <:+: digits ∧ bs = headerLine mark digits ++ rest) ∧
    (∀ (mark : UInt8) (digits rest : Bytes), ¬Bytes.crlf <:+: digits →
      let outcome := header (headerLine mark digits ++ rest)
      (∀ n used, outcome = .found n used ↔
        Decimal.Denotes digits n ∧ used = 1 + digits.length + 2) ∧
      ((∀ n, ¬Decimal.Denotes digits n) →
        outcome = .failed (.badLength (if digits = [] then "empty" else Utf8.lossy digits))) ∧
      (Word.size ≤ Decimal.value digits → outcome = .failed (.badLength (Utf8.lossy digits)))) ∧
    (∀ n < Word.size, ∀ (mark : UInt8) (rest : Bytes),
      header (headerLine mark (Decimal.encode n) ++ rest) =
        .found n (1 + (Decimal.encode n).length + 2)) ∧
    ∀ digits : Bytes, digits.foldlM Decimal.push? 0 = Decimal.decode? digits := by
  refine ⟨fun bs => exists_headerLine, ?_, ?_, ?_⟩
  · intro mark digits rest hfirst outcome
    refine ⟨fun n used => header_eq_found_iff hfirst,
      fun hnone => header_eq_failed hfirst hnone mark rest, ?_⟩
    intro hlarge
    have hnone : ∀ n, ¬Decimal.Denotes digits n := fun n hn =>
      absurd hn.fits (Nat.not_lt.2 (hn.value_eq ▸ hlarge))
    have hne : digits ≠ [] := by
      intro hempty
      subst hempty
      exact absurd hlarge (by decide)
    have hfailed := header_eq_failed hfirst hnone mark rest
    rwa [if_neg hne] at hfailed
  · intro n hn mark rest
    rw [header_headerLine (Decimal.denotes_encode hn), length_headerLine]
  · intro digits
    rw [Decimal.push?_eq]
    rfl

/-- The largest word, behind two zeros, and the number after it. -/
theorem header_exact_around_word_size :
    let largest := Bytes.ascii "0018446744073709551615"
    let next := Bytes.ascii "18446744073709551616"
    (∃ mark digits rest, ¬Bytes.crlf <:+: digits ∧
      Bytes.ascii "$7\r8\n\r\n\r\n" = headerLine mark digits ++ rest) ∧
    header (headerLine 36 largest ++ []) = .found (Word.size - 1) 25 ∧
    header (headerLine 36 next ++ []) = .failed (.badLength (Utf8.lossy next)) ∧
    header (headerLine 36 (Decimal.encode 1024) ++ []) = .found 1024 7 := by
  intro largest next
  obtain ⟨hsplit, hheader, hencode, -⟩ := header_exact
  obtain ⟨hfound, -, -⟩ := hheader 36 largest [] (Bytes.not_crlf_of_cr_notMem (by decide))
  obtain ⟨-, -, hlarge⟩ := hheader 36 next [] (Bytes.not_crlf_of_cr_notMem (by decide))
  have hcrlf : Bytes.crlf <:+: (Bytes.ascii "$7\r8\n\r\n\r\n").tail :=
    ⟨Bytes.ascii "7\r8\n", Bytes.crlf, by decide⟩
  exact ⟨hsplit _ hcrlf, (hfound _ _).2 (by decide), hlarge (by decide), hencode _ (by decide) _ _⟩

end Wire
end RespStore
