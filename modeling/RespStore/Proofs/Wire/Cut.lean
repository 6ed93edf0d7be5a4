import RespStore.Proofs.Wire.Deferral

/-!
# RespStore.Proofs.Wire.Cut

What a request looks like while it is arriving. A cut of a frame is waited for with one exception:
a header that has not ended is refused once more than `maxOpenHeader` bytes of it are there, though
leading zeros may make a numeral longer than that, and with the rest of its line such a header is
read without complaint. `Scan.Awaits` states this for every reader, from the header up.

So the cuts of a frame are all waited for exactly if its numerals are short, and short numerals
make an error final: no further bytes turn what was refused into a request.
-/

namespace RespStore

namespace Bytes

theorem IsCut.append_right {part front : Bytes} (h : IsCut part front) (back : Bytes) :
    IsCut part (front ++ back) := isCut_append_iff.2 (.inl h)

theorem IsCut.append_left {part back : Bytes} (h : IsCut part back) (front : Bytes) :
    IsCut (front ++ part) (front ++ back) := isCut_append_iff.2 (.inr ⟨part, rfl, h⟩)

/-- A cut of bytes that fit in memory fits in memory. -/
theorem IsCut.addressable {part whole : Bytes} (h : IsCut part whole) (hw : whole.Addressable) :
    part.Addressable := h.2.trans hw

end Bytes

namespace Wire

/-- No number of the request is written with more than twenty digits. -/
def Frame.ShortNumerals (f : Frame) : Prop := ∀ digits ∈ f.numerals, digits.length ≤ 20

instance (f : Frame) : Decidable f.ShortNumerals := inferInstanceAs (Decidable (∀ _ ∈ _, _))

/-- The outcome is to wait for more bytes, or else one of the numerals is too long for that. -/
def Scan.Awaits {α : Type} (scan : Scan FrameError α) (numerals : List Bytes) : Prop :=
  scan = .incomplete ∨ scan = .failed openHeader ∧ ∃ digits ∈ numerals, 20 < digits.length

theorem Scan.Awaits.mono {α β : Type} {scan : Scan FrameError α} {scan' : Scan FrameError β}
    {numerals numerals' : List Bytes} (h : scan.Awaits numerals) (hsub : numerals ⊆ numerals')
    (hwait : scan = .incomplete → scan' = .incomplete)
    (hfail : scan = .failed openHeader → scan' = .failed openHeader) : scan'.Awaits numerals' := by
  rcases h with hscan | ⟨hscan, digits, hmem, hlong⟩
  · exact .inl (hwait hscan)
  · exact .inr ⟨hfail hscan, digits, hsub hmem, hlong⟩

/-! ### Cuts are waited for -/

variable {limits : Limits}

theorem header_awaits {mark : UInt8} {digits part : Bytes} {n : Nat}
    (h : Decimal.Denotes digits n) (hcut : Bytes.IsCut part (headerLine mark digits)) :
    (header part).Awaits [digits] := by
  rw [header_of_cut h.cr_notMem hcut]
  split
  · exact .inl rfl
  · next hlong =>
    have hlt := hcut.2
    have hmax : maxOpenHeader = 22 := rfl
    rw [length_headerLine] at hlt
    exact .inr ⟨rfl, digits, List.mem_singleton_self _, by omega⟩

theorem bulk_awaits (hl : limits.maxBulk ≤ Limits.standard.maxBulk) {item : BulkFrame}
    (h : item.WellFormed limits) (haddr : item.bytes.Addressable) {part : Bytes}
    (hcut : Bytes.IsCut part item.bytes) : (bulk limits part).Awaits [item.digits] := by
  rw [bulk_eq (Limits.addressable_of_le hl) (hcut.addressable haddr)]
  rcases Bytes.isCut_append_iff.1 hcut with hline | ⟨rest, rfl, hrest⟩
  · refine (header_awaits h.announced hline).mono (List.Subset.refl _) ?_ ?_ <;>
    · intro hscan
      rw [hscan]
  · -- the payload or the end of its line is missing
    have hlt := hrest.2
    rw [List.length_append, Bytes.length_crlf] at hlt
    rw [header_headerLine h.announced]
    dsimp only
    rw [if_neg (Nat.not_lt.2 h.allowed), if_pos (by rw [List.length_append]; omega)]
    exact .inl rfl

/-- Looking through elements that begin with some bytes of a bulk string is looking at that. -/
theorem elementsEnd_of_part {item : BulkFrame} {part : Bytes} (hne : part ≠ [])
    (hbegins : part <+: item.bytes) (count position : Nat) :
    elementsEnd limits (count + 1) part position =
      match bulk limits part with
      | .found _ used => elementsEnd limits count (part.drop used) (position + used)
      | .incomplete => .incomplete
      | .failed error => .failed error := by
  obtain ⟨rest, hrest⟩ := hbegins
  cases part with
  | nil => exact absurd rfl hne
  | cons b part =>
    obtain ⟨rfl, -⟩ := List.cons.inj hrest
    rw [elementsEnd]
    exact if_neg (not_not.2 rfl)

theorem elementsEnd_awaits (hl : limits.maxBulk ≤ Limits.standard.maxBulk)
    {items : List BulkFrame} (hitems : ∀ item ∈ items, item.WellFormed limits)
    (haddr : (itemsBytes items).Addressable) {part : Bytes}
    (hcut : Bytes.IsCut part (itemsBytes items)) (position : Nat) :
    (elementsEnd limits items.length part position).Awaits (items.map BulkFrame.digits) := by
  induction items generalizing part position with
  | nil => exact absurd hcut (Bytes.not_isCut_nil part)
  | cons item items ih =>
    obtain ⟨hitem, hrest⟩ := List.forall_mem_cons.1 hitems
    rw [itemsBytes_cons] at hcut haddr
    rw [List.length_cons, List.map_cons]
    rcases Bytes.isCut_append_iff.1 hcut with hfirst | ⟨rest, rfl, hlater⟩
    · by_cases hne : part = []
      · rw [hne]
        exact .inl rfl
      · rw [elementsEnd_of_part hne hfirst.1]
        refine (bulk_awaits hl hitem haddr.left hfirst).mono (by simp) ?_ ?_ <;>
        · intro hscan
          rw [hscan]
    · rw [elementsEnd_cons hitem (hcut.addressable haddr)]
      exact (ih hrest haddr.right hlater _).mono (List.subset_cons_self ..) id id

/-- **A request that has not arrived as a whole is waited for**, unless it has a long numeral. -/
theorem request_awaits (hl : limits.maxBulk ≤ Limits.standard.maxBulk) {f : Frame}
    (hf : f.WellFormed limits) (haddr : f.bytes.Addressable) {part : Bytes}
    (hcut : Bytes.IsCut part f.bytes) :
    ∃ scan : Scan FrameError Request, scan.Awaits f.numerals ∧
      ∀ a, request limits a part = (scan.request, a) := by
  by_cases hne : part = []
  · rw [hne]
    exact ⟨.incomplete, .inl rfl, fun _ => rfl⟩
  · have hlike (a : Arena) : request limits a part = f.readLike limits a part :=
      request_of_head hf (Bytes.head?_of_part hne hcut.1) a
    simp only [hlike]
    cases f with
    | array digits items =>
      obtain ⟨hdigits, hitems, hmax, hallowed⟩ := hf
      simp only [Frame.readLike, array]
      rcases Bytes.isCut_append_iff.1 hcut with hline | ⟨rest, rfl, hrest⟩
      · rcases header_awaits hdigits hline with hscan | ⟨hscan, hlong⟩
        · refine ⟨.incomplete, .inl rfl, ?_⟩
          intro a
          rw [hscan]
          rfl
        · refine ⟨.failed openHeader, .inr ⟨rfl, digits, List.mem_cons_self .., ?_⟩, ?_⟩
          · simpa using hlong
          · intro a
            rw [hscan]
            rfl
      · simp only [header_headerLine hdigits, if_neg (mt List.length_eq_zero_iff.1 hitems),
          if_neg (Nat.not_lt.2 hmax), List.drop_left]
        rcases elementsEnd_awaits hl hallowed haddr.right hrest (headerLine _ digits).length with
          hscan | ⟨hscan, long, hmem, hlong⟩
        · refine ⟨.incomplete, .inl rfl, ?_⟩
          intro a
          rw [hscan]
          rfl
        · refine ⟨.failed openHeader, .inr ⟨rfl, long, List.mem_cons_of_mem _ hmem, hlong⟩, ?_⟩
          intro a
          rw [hscan]
          rfl
    | bulk item =>
      rcases bulk_awaits hl hf haddr hcut with hscan | ⟨hscan, hlong⟩
      · refine ⟨.incomplete, .inl rfl, ?_⟩
        intro a
        rw [Frame.readLike, hscan]
        rfl
      · refine ⟨.failed openHeader, .inr ⟨rfl, hlong⟩, ?_⟩
        intro a
        rw [Frame.readLike, hscan]
        rfl
    | ping word =>
      refine ⟨.incomplete, .inl rfl, ?_⟩
      intro a
      rw [Frame.readLike, inline_of_cut hf hcut]
      rfl

/-! ### Long numerals are not -/

/-- As much of a header line as shows that its numeral is long. -/
def openLine (mark : UInt8) (digits : Bytes) : Bytes :=
  (headerLine mark digits).take (maxOpenHeader + 1)

theorem openLine_ne_nil {mark : UInt8} {digits : Bytes} : openLine mark digits ≠ [] :=
  List.cons_ne_nil _ _

theorem isCut_openLine {digits : Bytes} (h : 20 < digits.length) (mark : UInt8) :
    Bytes.IsCut (openLine mark digits) (headerLine mark digits) := by
  refine ⟨List.take_prefix .., ?_⟩
  rw [openLine, List.length_take, length_headerLine, maxOpenHeader]
  omega

theorem header_openLine {digits : Bytes} {n : Nat} (hn : Decimal.Denotes digits n)
    (h : 20 < digits.length) (mark : UInt8) :
    header (openLine mark digits) = .failed openHeader := by
  rw [header_of_cut hn.cr_notMem (isCut_openLine h mark), if_neg]
  rw [openLine, List.length_take, length_headerLine, maxOpenHeader]
  omega

theorem bulk_openLine {item : BulkFrame} (hitem : item.WellFormed limits)
    (h : 20 < item.digits.length) :
    bulk limits (openLine Encoding.bulkMark item.digits) = .failed openHeader := by
  rw [bulk, header_openLine hitem.announced h]

/-- A long numeral among some elements makes one of their cuts an error. -/
theorem exists_cut_of_long_item {items : List BulkFrame}
    (hitems : ∀ item ∈ items, item.WellFormed limits) (haddr : (itemsBytes items).Addressable)
    {item : BulkFrame} (hmem : item ∈ items) (h : 20 < item.digits.length) :
    ∃ part, Bytes.IsCut part (itemsBytes items) ∧
      ∀ position, elementsEnd limits items.length part position = .failed openHeader := by
  induction items with
  | nil => exact absurd hmem List.not_mem_nil
  | cons first items ih =>
    obtain ⟨hfirst, hrest⟩ := List.forall_mem_cons.1 hitems
    rw [itemsBytes_cons] at haddr ⊢
    rw [List.length_cons]
    rcases List.mem_cons.1 hmem with rfl | hmem
    · have hline := (isCut_openLine h Encoding.bulkMark).append_right (item.payload ++ Bytes.crlf)
      refine ⟨openLine Encoding.bulkMark item.digits, hline.append_right _, ?_⟩
      intro position
      rw [elementsEnd_of_part openLine_ne_nil hline.1, bulk_openLine hfirst h]
    · obtain ⟨part, hcut, hfail⟩ := ih hrest haddr.right hmem
      refine ⟨first.bytes ++ part, hcut.append_left _, ?_⟩
      intro position
      rw [elementsEnd_cons hfirst ((hcut.append_left _).addressable haddr), hfail]

/-- **A long numeral in a request makes one of its cuts an error.** -/
theorem exists_cut_of_long {f : Frame} (hf : f.WellFormed limits)
    (haddr : f.bytes.Addressable) (h : ¬f.ShortNumerals) :
    ∃ part, part ≠ [] ∧ Bytes.IsCut part f.bytes ∧
      ∀ a, request limits a part = (.failed (.frame openHeader), a) := by
  obtain ⟨digits, hmem, hlong⟩ : ∃ digits ∈ f.numerals, 20 < digits.length := by
    simpa [Frame.ShortNumerals] using h
  cases f with
  | array count items =>
    have hread {part : Bytes} (hne : part ≠ [])
        (hcut : Bytes.IsCut part (Frame.array count items).bytes) (a : Arena) :
        request limits a part = array limits a part :=
      request_of_head hf (Bytes.head?_of_part hne hcut.1) a
    obtain ⟨hcount, hitems, hmax, hallowed⟩ := hf
    rcases List.mem_cons.1 hmem with rfl | hmem
    · have hcut := (isCut_openLine hlong Encoding.arrayMark).append_right (itemsBytes items)
      refine ⟨_, openLine_ne_nil, hcut, ?_⟩
      intro a
      rw [hread openLine_ne_nil hcut, array, header_openLine hcount hlong]
    · obtain ⟨item, hitem, rfl⟩ := List.mem_map.1 hmem
      obtain ⟨part, hpart, hfail⟩ := exists_cut_of_long_item hallowed haddr.right hitem hlong
      have hcut := hpart.append_left (headerLine Encoding.arrayMark count)
      have hne : headerLine Encoding.arrayMark count ++ part ≠ [] := List.cons_ne_nil _ _
      refine ⟨_, hne, hcut, ?_⟩
      intro a
      rw [hread hne hcut, array, header_headerLine hcount]
      dsimp only
      rw [if_neg (mt List.length_eq_zero_iff.1 hitems), if_neg (Nat.not_lt.2 hmax),
        List.drop_left, hfail]
  | bulk item =>
    obtain rfl := List.mem_singleton.1 hmem
    have hcut := (isCut_openLine hlong Encoding.bulkMark).append_right (item.payload ++ Bytes.crlf)
    refine ⟨_, openLine_ne_nil, hcut, ?_⟩
    intro a
    rw [request_of_head hf (Bytes.head?_of_part openLine_ne_nil hcut.1), Frame.readLike,
      bulk_openLine hf hlong]
    rfl
  | ping word => exact absurd hmem List.not_mem_nil

/-! ### Complete requests are not -/

/-- The bytes do not begin with a complete request, be it one that the limits of a session allow or
not. -/
def Incomplete (bs : Bytes) : Prop :=
  ∀ (limits : Limits) (f : Frame), f.WellFormed limits → ¬f.bytes <+: bs

theorem incomplete_nil : Incomplete [] := by
  intro limits f hf hfirst
  exact f.bytes_ne_nil (List.prefix_nil.1 hfirst)

/-- A complete bulk string is read, or it is longer than the limits allow. -/
theorem bulk_of_announced (limits : Limits) {item : BulkFrame}
    (h : Decimal.Denotes item.digits item.payload.length) (rest : Bytes) :
    item.WellFormed limits ∨ ∃ error, bulk limits (item.bytes ++ rest) = .failed error := by
  rcases Nat.lt_or_ge limits.maxBulk item.payload.length with hlong | hle
  · right
    rw [BulkFrame.bytes_append, bulk, header_headerLine h]
    dsimp only
    rw [if_pos hlong]
    exact ⟨_, rfl⟩
  · exact .inl ⟨h, hle⟩

theorem elementsEnd_of_announced (limits : Limits) {items : List BulkFrame}
    (h : ∀ item ∈ items, Decimal.Denotes item.digits item.payload.length) {rest : Bytes}
    (hbs : Bytes.Addressable (itemsBytes items ++ rest)) (position : Nat) :
    (∀ item ∈ items, item.WellFormed limits) ∨
      ∃ error, elementsEnd limits items.length (itemsBytes items ++ rest) position =
        .failed error := by
  induction items generalizing position with
  | nil => exact .inl (by simp)
  | cons item items ih =>
    obtain ⟨hitem, hitems⟩ := List.forall_mem_cons.1 h
    rw [itemsBytes_cons, List.append_assoc] at hbs ⊢
    rw [List.length_cons]
    rcases bulk_of_announced limits hitem (itemsBytes items ++ rest) with hwf | ⟨error, hfail⟩
    · rw [elementsEnd_cons hwf hbs]
      rcases ih hitems hbs.right (position + item.bytes.length) with hall | hfail
      · exact .inl (List.forall_mem_cons.2 ⟨hwf, hall⟩)
      · exact .inr hfail
    · obtain ⟨tail, htail⟩ : ∃ tail, item.bytes ++ (itemsBytes items ++ rest) =
        Encoding.bulkMark :: tail := ⟨_, rfl⟩
      rw [htail] at hfail ⊢
      rw [elementsEnd, if_neg (not_not.2 rfl), hfail]
      exact .inr ⟨error, rfl⟩

/-- **A complete request is not waited for.** One that is more than the limits allow is refused. -/
theorem request_of_complete (limits : Limits) {limits' : Limits} {f : Frame}
    (hf : f.WellFormed limits') {rest : Bytes} (hbs : Bytes.Addressable (f.bytes ++ rest)) :
    f.WellFormed limits ∨
      ∃ error, ∀ a, request limits a (f.bytes ++ rest) = (.failed (.frame error), a) := by
  have hhead := (Bytes.head?_of_part f.bytes_ne_nil (List.prefix_append f.bytes rest)).symm
  have hread (a : Arena) : request limits a (f.bytes ++ rest) =
      f.readLike limits a (f.bytes ++ rest) := request_of_head hf hhead a
  cases f with
  | array digits items =>
    obtain ⟨hdigits, hne, -, hitems⟩ := hf
    simp only [hread, Frame.readLike, array]
    rw [Frame.bytes, List.append_assoc] at hbs ⊢
    simp only [header_headerLine hdigits, if_neg (mt List.length_eq_zero_iff.1 hne),
      List.drop_left]
    split
    · exact .inr ⟨_, fun _ => rfl⟩
    · next hmax =>
      rcases elementsEnd_of_announced limits
        (fun item hitem => (hitems item hitem).announced) hbs.right
        (headerLine Encoding.arrayMark digits).length with hall | ⟨error, hfail⟩
      · exact .inl ⟨hdigits, hne, Nat.le_of_not_lt hmax, hall⟩
      · rw [hfail]
        exact .inr ⟨error, fun _ => rfl⟩
  | bulk item =>
    rcases bulk_of_announced limits hf.announced rest with hwf | ⟨error, hfail⟩
    · exact .inl hwf
    · simp only [hread, Frame.readLike]
      rw [Frame.bytes, hfail]
      exact .inr ⟨error, fun _ => rfl⟩
  | ping word => exact .inl hf

end Wire

namespace Batch

open Wire

variable {limits : Limits} {a : Arena}

/-! ### Reading what has arrived -/

/-- The beginning of a request alone is no batch yet. -/
theorem read_of_incomplete {bs : Bytes} (hroom : a.used + cost [] ≤ a.limit)
    (h : ∀ a, request limits a bs = (.incomplete, a)) :
    ∃ a', Batch.read limits a bs = (.ok none, a') := by
  rcases reserve_cases a with ⟨-, b, a', hreserve, hpaid⟩ | ⟨hnone, -⟩
  · rw [Batch.read, hreserve]
    dsimp only
    rw [readFrom_incomplete (h a'), Batch.close, if_pos (hpaid.isEmpty_iff.2 rfl)]
    exact ⟨a', rfl⟩
  · omega

/-- Bytes that cannot be read are an error where they come first. -/
theorem read_of_failed {bs : Bytes} {error : FrameError} (hroom : a.used + cost [] ≤ a.limit)
    (h : ∀ a, request limits a bs = (.failed (.frame error), a)) :
    ∃ a', Batch.read limits a bs = (.error (.frame error), a') := by
  rcases reserve_cases a with ⟨-, b, a', hreserve, hpaid⟩ | ⟨hnone, -⟩
  · rw [Batch.read, hreserve]
    dsimp only
    exact ⟨a', readFrom_refused (h a') (.inl (hpaid.isEmpty_iff.2 rfl)) 0⟩
  · omega

/-- An answer that is not the arena's tells that the arena had room for the first slots. -/
theorem room_of_read {bs : Bytes} {result : Except ParseError (Option Read)} {a' : Arena}
    (h : Batch.read limits a bs = (result, a'))
    (hresult : ∀ error, result ≠ .error (.arena error)) :
    a.used + cost [] ≤ a.limit := by
  rcases reserve_cases a with ⟨hroom, -⟩ | ⟨-, error, a₁, hreserve⟩
  · exact hroom
  · rw [Batch.read, hreserve] at h
    cases h
    exact absurd rfl (hresult error)

/-- **Bytes that do not begin with a frame give no batch**, and every arena with room for the first
slots gives the same answer. -/
theorem read_of_no_frame (hl : limits.maxBulk ≤ Limits.standard.maxBulk) {bs : Bytes}
    (hbs : bs.Addressable) (hnone : ∀ f : Frame, f.WellFormed limits → ¬f.bytes <+: bs) :
    ∃ result : Except ParseError (Option Read),
      (result = .ok none ∨ ∃ error, result = .error (.frame error)) ∧
        ∀ a : Arena, a.used + cost [] ≤ a.limit →
          ∃ a', Batch.read limits a bs = (result, a') := by
  rcases request_of_no_frame (Limits.addressable_of_le hl) hbs hnone with
    hrequest | ⟨error, -, hrequest⟩
  · exact ⟨_, .inl rfl, fun a hroom => read_of_incomplete hroom hrequest⟩
  · exact ⟨_, .inr ⟨error, rfl⟩, fun a hroom => read_of_failed hroom hrequest⟩

/-- **Complete requests are all taken in**, and a beginning of the next one is left. -/
theorem read_frames {fs : List Frame} (hfs : ∀ f ∈ fs, f.WellFormed limits) {tail : Bytes}
    (hbs : Bytes.Addressable (framesBytes fs ++ tail))
    (htail : ∀ a, request limits a tail = (.incomplete, a))
    (hroom : a.used + cost fs ≤ a.limit) :
    ∃ (b : Batch) (a' : Arena), b.toList = fs.map (fun f => requestOf f.args) ∧
      (b.isEmpty = true ↔ fs = []) ∧ a'.growable = a.growable ∧
      Batch.read limits a (framesBytes fs ++ tail) =
        (.ok (b.close (framesBytes fs).length), a') := by
  obtain ⟨b, a', hpaid, hread⟩ := read_frames_append hfs hbs hroom
  refine ⟨b, a', hpaid.toList, hpaid.isEmpty_iff, hpaid.spends.growable, ?_⟩
  rw [hread, readFrom_incomplete (htail a')]

/-- What a cut of a request is read as: nothing yet, or the one error. -/
theorem read_of_cut (hl : limits.maxBulk ≤ Limits.standard.maxBulk) {f : Frame}
    (hf : f.WellFormed limits) (haddr : f.bytes.Addressable) {part : Bytes}
    (hcut : Bytes.IsCut part f.bytes) (hroom : a.used + cost [] ≤ a.limit) :
    (∃ a', Batch.read limits a part = (.ok none, a')) ∨
      ¬f.ShortNumerals ∧ ∃ a', Batch.read limits a part = (.error (.frame openHeader), a') := by
  obtain ⟨scan, hscan, hrequest⟩ := request_awaits hl hf haddr hcut
  rcases hscan with rfl | ⟨rfl, digits, hmem, hlong⟩
  · exact .inl (read_of_incomplete hroom hrequest)
  · refine .inr ⟨?_, read_of_failed hroom hrequest⟩
    intro hshort
    have := hshort digits hmem
    omega

/-- A batch comes from bytes that begin with a frame that the arena could pay for. -/
theorem frame_of_read_some (hl : limits.maxBulk ≤ Limits.standard.maxBulk) {bs : Bytes}
    (hbs : bs.Addressable) {r : Read} {a' : Arena}
    (h : Batch.read limits a bs = (.ok (some r), a')) :
    ∃ f : Frame, f.WellFormed limits ∧ f.bytes <+: bs ∧ a.used + cost [f] ≤ a.limit := by
  by_cases hframe : ∃ f : Frame, f.WellFormed limits ∧ f.bytes <+: bs
  · obtain ⟨f, hf, hfirst⟩ := hframe
    refine ⟨f, hf, hfirst, Nat.le_of_not_lt ?_⟩
    intro hroom
    obtain ⟨error, a'', herror⟩ := read_of_unpaid hbs hf hfirst hroom
    rw [herror] at h
    cases h
  · have hnone : ∀ f : Frame, f.WellFormed limits → ¬f.bytes <+: bs :=
      fun f hf hfirst => hframe ⟨f, hf, hfirst⟩
    obtain ⟨result, hresult, hread⟩ := read_of_no_frame hl hbs hnone
    obtain ⟨_, hread⟩ := hread a (room_of_read h (by rintro _ ⟨⟩))
    rw [hread] at h
    obtain ⟨rfl, -⟩ := Prod.mk.inj h
    rcases hresult with hnil | ⟨_, herror⟩
    · cases hnil
    · cases herror

/-- Bytes that begin with a frame give a batch, unless the arena refuses. -/
theorem read_of_frame (hl : limits.maxBulk ≤ Limits.standard.maxBulk) {bs : Bytes}
    (hbs : bs.Addressable) {f : Frame} (hf : f.WellFormed limits) (hfirst : f.bytes <+: bs) :
    (∃ r a', Batch.read limits a bs = (.ok (some r), a')) ∨
      ∃ error a', Batch.read limits a bs = (.error (.arena error), a') := by
  rcases Nat.lt_or_ge a.limit (a.used + cost [f]) with hunpaid | hpaid
  · exact .inr (read_of_unpaid hbs hf hfirst hunpaid)
  · rcases read_of_first hl hbs hf hfirst hpaid with ⟨_, _, _, -, -, -, -, hread⟩ | hover
    · exact .inl ⟨_, _, hread⟩
    · exact .inr (read_of_overgrown hbs hover)

/-- **Bytes that give no batch and no error are incomplete.** -/
theorem incomplete_of_read_none (hl : limits.maxBulk ≤ Limits.standard.maxBulk) {bs : Bytes}
    (hbs : bs.Addressable) {a' : Arena} (h : Batch.read limits a bs = (.ok none, a')) :
    Incomplete bs := by
  intro limits' f hf hfirst
  obtain ⟨rest, rfl⟩ := hfirst
  rcases request_of_complete limits hf hbs with hwf | ⟨error, hfail⟩
  · rcases read_of_frame hl hbs hwf (List.prefix_append ..) with ⟨_, _, hread⟩ | ⟨_, _, hread⟩
    · rw [hread] at h
      cases h
    · rw [hread] at h
      cases h
  · obtain ⟨_, hread⟩ := read_of_failed (room_of_read h (by rintro _ ⟨⟩)) hfail
    rw [hread] at h
    cases h

/-- Bytes that begin with a frame are never refused for what they are. -/
theorem frame_error_of_read (hl : limits.maxBulk ≤ Limits.standard.maxBulk) {f : Frame}
    (hf : f.WellFormed limits) {part rest : Bytes} (hbs : Bytes.Addressable (part ++ rest))
    (hfirst : f.bytes <+: part ++ rest) {error : FrameError} {a' : Arena}
    (h : Batch.read limits a part = (.error (.frame error), a')) :
    error = openHeader ∧ ¬f.ShortNumerals := by
  have hroom : a.used + cost [] ≤ a.limit := room_of_read h (by rintro _ ⟨⟩)
  rcases Nat.lt_or_ge part.length f.bytes.length with hlt | hge
  · have hpart : part <+: f.bytes :=
      List.prefix_of_prefix_length_le (List.prefix_append ..) hfirst hlt.le
    have haddr : f.bytes.Addressable := by
      obtain ⟨tail, htail⟩ := hfirst
      exact (htail ▸ hbs : Bytes.Addressable (f.bytes ++ tail)).left
    rcases read_of_cut hl hf haddr ⟨hpart, hlt⟩ hroom with ⟨_, hread⟩ | ⟨hlong, _, hread⟩
    · rw [hread] at h
      cases h
    · rw [hread] at h
      cases h
      exact ⟨rfl, hlong⟩
  · have hwhole : f.bytes <+: part :=
      List.prefix_of_prefix_length_le hfirst (List.prefix_append ..) hge
    rcases read_of_frame hl hbs.left hf hwhole with ⟨_, _, hread⟩ | ⟨_, _, hread⟩
    · rw [hread] at h
      cases h
    · rw [hread] at h
      cases h

/-- **Which requests may arrive in pieces.** Let a batch be read, and let `f` be its first frame.
Every cut of `f` is waited for exactly if the numerals of `f` are short. And where some of the bytes
are refused, the error is the one of a header that does not end, and the numerals of `f` are not
short. -/
theorem read_cut_of_read_some (hl : limits.maxBulk ≤ Limits.standard.maxBulk) {bs : Bytes}
    (hbs : bs.Addressable) {r : Read} {a' : Arena}
    (h : Batch.read limits a bs = (.ok (some r), a')) :
    ∃ f : Frame, f.WellFormed limits ∧ f.bytes <+: bs ∧
      r.batch.toList.head? = some (requestOf f.args) ∧
      ((∀ part ≠ [], Bytes.IsCut part f.bytes → ∀ a₁ : Arena, a₁.used + cost [] ≤ a₁.limit →
          ∃ a₂, Batch.read limits a₁ part = (.ok none, a₂)) ↔ f.ShortNumerals) ∧
      (∀ part rest, part ++ rest = bs → ∀ (a₁ : Arena) (error : FrameError) (a₂ : Arena),
        Batch.read limits a₁ part = (.error (.frame error), a₂) →
          error = openHeader ∧ ¬f.ShortNumerals) := by
  obtain ⟨f, hf, hfirst, hroom⟩ := frame_of_read_some hl hbs h
  have haddr : f.bytes.Addressable := by
    obtain ⟨tail, rfl⟩ := hfirst
    exact hbs.left
  refine ⟨f, hf, hfirst, ?_, ⟨?_, ?_⟩, ?_⟩
  · rcases read_of_first hl hbs hf hfirst hroom with ⟨_, _, _, -, -, htoList, -, hread⟩ | hover
    · rw [hread] at h
      cases h
      rw [htoList]
      rfl
    · obtain ⟨_, _, hread⟩ := read_of_overgrown hbs hover
      rw [hread] at h
      cases h
  · intro hcuts
    by_contra hlong
    obtain ⟨part, hne, hcut, hrequest⟩ := exists_cut_of_long hf haddr hlong
    have hcost : cost [] ≤ cost [f] := cost_mono
    have hroom' : a.used + cost [] ≤ a.limit := by omega
    obtain ⟨_, hfail⟩ := read_of_failed hroom' hrequest
    obtain ⟨_, hread⟩ := hcuts part hne hcut a hroom'
    rw [hread] at hfail
    cases hfail
  · intro hshort part _ hcut a₁ hroom₁
    exact (read_of_cut hl hf haddr hcut hroom₁).resolve_right fun hlong => hlong.1 hshort
  · intro part rest hparts a₁ error a₂ hread
    subst hparts
    exact frame_error_of_read hl hf hbs hfirst hread

/-- Every cut of a short request is waited for. -/
theorem read_cut_of_ping :
    let a : Arena := ⟨1024, 0, false, by decide, by decide⟩
    let bs := Bytes.ascii "*1\r\n$4\r\nPING\r\n"
    ∃ (r : Read) (a' : Arena) (f : Frame), Batch.read Limits.standard a bs = (.ok (some r), a') ∧
      f.WellFormed Limits.standard ∧ f.bytes <+: bs ∧
      r.batch.toList.head? = some (requestOf f.args) ∧
      ((∀ part ≠ [], Bytes.IsCut part f.bytes → ∀ a₁ : Arena, a₁.used + cost [] ≤ a₁.limit →
          ∃ a₂, Batch.read Limits.standard a₁ part = (.ok none, a₂)) ↔ f.ShortNumerals) := by
  intro a bs
  have hping : (Frame.array [49] [⟨[52], pingWord⟩]).WellFormed Limits.standard := by decide
  obtain ⟨gs, b, a', -, -, -, -, hread⟩ :=
    (read_of_first (a := a) (Nat.le_refl _) (by decide) hping (by decide : _ <+: bs)
      (by decide)).resolve_right fun h => absurd h.length_le (by decide)
  obtain ⟨f, hf, hfirst, hhead, hcuts, -⟩ :=
    read_cut_of_read_some (Nat.le_refl _) (by decide) hread
  exact ⟨_, a', f, hread, hf, hfirst, hhead, hcuts⟩

/-- **A request can be refused for arriving in pieces.** Here the number of elements is written with
leading zeros. -/
theorem read_refuses_cut_of_padded_ping :
    let a : Arena := ⟨1024, 0, false, by decide, by decide⟩
    let f := Frame.array (List.replicate 24 48 ++ [49]) [⟨[52], pingWord⟩]
    let part := f.bytes.take 26
    (∃ r a', Batch.read Limits.standard a f.bytes = (.ok (some r), a') ∧
        r.batch.toList.head? = some (requestOf f.args)) ∧
      part ≠ [] ∧ Bytes.IsCut part f.bytes ∧
      ∃ a', Batch.read Limits.standard a part = (.error (.frame openHeader), a') := by
  intro a f part
  have hf : f.WellFormed Limits.standard := by decide
  obtain ⟨gs, b, a', -, -, htoList, -, hread⟩ :=
    (read_of_first (a := a) (Nat.le_refl _) (by decide) hf (List.prefix_refl f.bytes)
      (by decide)).resolve_right fun h => absurd h.length_le (by decide)
  refine ⟨⟨_, a', hread, ?_⟩, by decide, ⟨List.take_prefix .., by decide⟩, ?_⟩
  · rw [htoList]
    rfl
  · exact read_of_failed (by decide) fun _ => rfl

end Batch
end RespStore
