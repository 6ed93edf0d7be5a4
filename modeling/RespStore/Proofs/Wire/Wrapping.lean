import RespStore.Proofs.Wire.Checked

/-!
# RespStore.Proofs.Wire.Wrapping

Where lengths near the size of a word begin. A bulk string that has not arrived is waited for if its
end is a word, and hardly ever if it is not (`bulk_eq_incomplete_iff`).

The checks of `Checked.bulk` say where that begins: they all succeed exactly on bytes whose end is a
word (`Checked.bulk_eq_none_iff`). Numerals may have any number of leading zeros, so the limits that
rule it out for all bytes are those below half a word (`forall_endsInWord_iff`).
-/

namespace RespStore

open Wire

variable {limits : Limits} {bs : Bytes} {length start : Nat}

namespace Wire

/-- A bulk string that has not arrived is waited for where its end is a word. Where it is not, only
the greatest length with nothing behind its header is. -/
theorem bulk_eq_incomplete_iff (hbs : bs.Addressable)
    (hmark : bs.head? = some Encoding.bulkMark) (hd : header bs = .found length start)
    (hallowed : length ≤ limits.maxBulk) (hshort : bs.length < start + length + 2) :
    bulk limits bs = .incomplete ↔
      start + length + 2 < Word.size ∨ (length + 1 = Word.size ∧ bs.length = start) := by
  by_cases hlt : start + length + 2 < Word.size
  · rw [bulk_of_header hd hlt, if_neg (Nat.not_lt.2 hallowed), if_pos hshort]
    exact iff_of_true rfl (.inl hlt)
  · rw [bulk_of_not_lt hbs hmark hd hallowed hlt]
    have hpos := header_used_pos hd
    constructor
    · intro hincomplete
      split at hincomplete
      · cases hincomplete
      · split at hincomplete
        · cases hincomplete
        · split at hincomplete
          · next hmissing => exact .inr hmissing
          · cases hincomplete
    · intro hcases
      have hmissing := hcases.resolve_left hlt
      rw [if_neg (by omega), if_neg (by omega), if_pos hmissing]

end Wire

namespace Checked

theorem add_of_not_lt {m n : Nat} (h : ¬m + n < Word.size) : add m n = none := if_neg h

/-- **Where the end is no word, a check fails.** -/
theorem bulk_of_not_lt (hbs : bs.Addressable) (hmark : bs.head? = some Encoding.bulkMark)
    (hd : Wire.header bs = .found length start) (hallowed : length ≤ limits.maxBulk)
    (hwraps : ¬start + length + 2 < Word.size) : bulk limits bs = none := by
  have hne : bs ≠ [] := by
    intro hempty
    subst hempty
    cases hmark
  rw [bulk, header_eq hbs hne, hmark, hd]
  simp only [guard, Option.bind_eq_bind, if_true, Option.pure_def, Option.bind_some,
    if_neg (Nat.not_lt.2 hallowed), Bytes.length_crlf]
  by_cases hpart : start + length < Word.size
  · rw [add_of_lt hpart, Option.bind_some, add_of_not_lt hwraps]
    rfl
  · rw [add_of_not_lt hpart]
    rfl

/-- **A check fails exactly where the end is no word.** -/
theorem bulk_eq_none_iff (hbs : bs.Addressable) (hmark : bs.head? = some Encoding.bulkMark) :
    bulk limits bs = none ↔ ¬EndsInWord limits bs := by
  constructor
  · intro hnone hends
    rw [bulk_eq_of_lt hbs hmark hends] at hnone
    cases hnone
  · intro hends
    simp only [EndsInWord, not_forall] at hends
    obtain ⟨length, start, hd, hallowed, hwraps⟩ := hends
    exact bulk_of_not_lt hbs hmark hd hallowed hwraps

theorem endsInWord_of_eq_some (hbs : bs.Addressable) (hmark : bs.head? = some Encoding.bulkMark)
    {scan : Scan FrameError Bytes} (h : bulk limits bs = some scan) : EndsInWord limits bs := by
  by_contra hends
  rw [(bulk_eq_none_iff hbs hmark).2 hends] at h
  cases h

end Checked

namespace Wire

/-! ### Limits -/

/-- A length up to half a word can be announced by a header that leaves room for nothing else. -/
theorem exists_long_header (hlength : length < 2 ^ 63) :
    ∃ bs : Bytes, bs.Addressable ∧ bs.head? = some Encoding.bulkMark ∧
      header bs = .found length (2 ^ 63 - 1) := by
  have hdenotes : Decimal.Denotes (Decimal.encode length) length :=
    Decimal.denotes_encode (Nat.lt_trans hlength (by decide))
  have hshort := Decimal.length_encode_le length
  obtain ⟨zeros, hzeros⟩ : ∃ zeros, zeros + (Decimal.encode length).length + 3 = 2 ^ 63 - 1 :=
    ⟨2 ^ 63 - 1 - 3 - (Decimal.encode length).length, by omega⟩
  generalize hdigits : List.replicate zeros 48 ++ Decimal.encode length = digits
  have hlen : (headerLine Encoding.bulkMark digits).length = 2 ^ 63 - 1 := by
    rw [length_headerLine, ← hdigits, List.length_append, List.length_replicate]
    omega
  have hheader := header_headerLine (hdigits ▸ hdenotes.zeros_append zeros) Encoding.bulkMark []
  rw [List.append_nil, hlen] at hheader
  refine ⟨_, ?_, rfl, hheader⟩
  unfold Bytes.Addressable
  omega

/-- **The limits for which all ends are words** are those below half a word. -/
theorem forall_endsInWord_iff :
    (∀ bs : Bytes, bs.Addressable → bs.head? = some Encoding.bulkMark → EndsInWord limits bs) ↔
      limits.maxBulk + 1 < 2 ^ 63 := by
  have hsize : Word.size = 2 ^ 64 := by decide
  constructor
  · intro hall
    by_contra hlarge
    obtain ⟨bs, hbs, hmark, hd⟩ := exists_long_header (show 2 ^ 63 - 1 < 2 ^ 63 by decide)
    have hlt := hall bs hbs hmark _ _ hd (by omega)
    omega
  · intro hsmall bs hbs _ length start hd hallowed
    have hstart := header_used_le hd
    unfold Bytes.Addressable at hbs
    omega

/-- **Where the end of a bulk string is exact.** For limits of any size, and any bytes that fit in
memory, no check of `Checked.bulk` fails if and only if the end that the header announces is a word.
Where the limits allow the length and fewer bytes follow the header than the payload and its line
break take, the same condition says that the rest is waited for; otherwise positions come round, and
the rest is waited for by chance, if the greatest length is announced and nothing follows.

All ends are words, whatever the bytes are, exactly for limits below half a word. -/
theorem bulk_end_exact (limits : Limits) :
    (∀ bs : Bytes, bs.Addressable → bs.head? = some Encoding.bulkMark →
      (Checked.bulk limits bs = some (bulk limits bs) ↔ EndsInWord limits bs) ∧
        ∀ length start, header bs = .found length start → length ≤ limits.maxBulk →
          (bs.drop start).length < length + 2 →
            (Checked.bulk limits bs = some .incomplete ↔ start + length + 2 < Word.size) ∧
              (bulk limits bs = .incomplete ↔ start + length + 2 < Word.size ∨
                (length + 1 = Word.size ∧ bs.drop start = []))) ∧
      ((∀ bs : Bytes, bs.Addressable → bs.head? = some Encoding.bulkMark →
        EndsInWord limits bs) ↔ limits.maxBulk + 1 < 2 ^ 63) := by
  refine ⟨?_, forall_endsInWord_iff⟩
  intro bs hbs hmark
  refine ⟨⟨Checked.endsInWord_of_eq_some hbs hmark, Checked.bulk_eq_of_lt hbs hmark⟩, ?_⟩
  intro length start hd hallowed hshort
  have hstart := header_used_le hd
  rw [List.length_drop] at hshort
  have hincomplete := bulk_eq_incomplete_iff hbs hmark hd hallowed (by omega)
  have hnothing : bs.length = start ↔ bs.drop start = [] := by
    rw [List.drop_eq_nil_iff]
    omega
  rw [hnothing] at hincomplete
  have hends := endsInWord_iff_of_header hd hallowed
  refine ⟨⟨?_, ?_⟩, hincomplete⟩
  · intro hwaits
    exact hends.1 (Checked.endsInWord_of_eq_some hbs hmark hwaits)
  · intro hlt
    rw [Checked.bulk_eq_of_lt hbs hmark (hends.2 hlt), hincomplete.2 (.inl hlt)]

/-- The greatest length whose end is still a word, after a header of 23 bytes. -/
theorem bulk_end_exact_greatest :
    let limits : Limits := ⟨Word.size - 1, 1⟩
    let bs := Bytes.ascii "$18446744073709551590\r\n"
    bs.Addressable ∧ header bs = .found (Word.size - 26) 23 ∧ 23 + (Word.size - 26) + 2 < Word.size ∧
      Checked.bulk limits bs = some .incomplete ∧ bulk limits bs = .incomplete := by
  intro limits bs
  have hbs : bs.Addressable := by decide
  have hd : header bs = .found (Word.size - 26) 23 := by decide
  have hlt : 23 + (Word.size - 26) + 2 < Word.size := by decide
  obtain ⟨-, hexact⟩ := (bulk_end_exact limits).1 bs hbs (by decide)
  obtain ⟨hchecked, hbulk⟩ := hexact _ _ hd (by decide) (by decide)
  exact ⟨hbs, hd, hlt, hchecked.2 hlt, hbulk.2 (.inl hlt)⟩

/-- **A bulk string that has not arrived is refused** if its length is close to a word and limits
allow it: what has arrived of it is the header and two bytes of the payload. -/
theorem bulk_refuses_announced_payload :
    let limits : Limits := ⟨Word.size - 1, 1⟩
    let bs := Bytes.ascii "$18446744073709551615\r\n\r\n"
    header bs = .found (Word.size - 1) 23 ∧ Word.size - 1 ≤ limits.maxBulk ∧
      (bs.drop 23).length < Word.size - 1 + 2 ∧
      bulk limits bs = .failed .unendedPayload ∧ Checked.bulk limits bs = none := by
  decide

end Wire
end RespStore
