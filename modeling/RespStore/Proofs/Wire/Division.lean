import RespStore.Proofs.Wire.Cut

/-!
# RespStore.Proofs.Wire.Division

How bytes divide into requests. The first end of a line closes a header, and the header tells how
many bytes or elements follow, so no frame is the beginning of another and none is written in two
ways (`Frame.append_inj`). Bytes therefore divide in one way only into frames and a rest that does
not begin with a frame (`Divides`, `existsUnique_divides`).

A batch never holds anything but frames from the start of the bytes (`frames_of_read_some`), and
where the arena can pay for them it holds all the frames of the division (`read_eq_some_iff`).
-/

namespace RespStore

namespace Wire

variable {limits limits' : Limits}

/-! ### One reading -/

/-- A header line ends at the first end of a line. -/
theorem headerLine_append_inj {mark mark' : UInt8} {digits digits' rest rest' : Bytes}
    (h : Bytes.cr ∉ digits) (h' : Bytes.cr ∉ digits')
    (heq : headerLine mark digits ++ rest = headerLine mark' digits' ++ rest') :
    digits = digits' ∧ rest = rest' := by
  simp only [headerLine, List.cons_append, List.append_assoc] at heq
  obtain ⟨-, htail⟩ := List.cons.inj heq
  have hlength : digits.length = digits'.length := by
    have hfirst := Bytes.crlfAt?_append_crlf h rest
    rw [htail, Bytes.crlfAt?_append_crlf h' rest'] at hfirst
    exact (Option.some.inj hfirst).symm
  obtain ⟨hdigits, hrest⟩ := List.append_inj htail hlength
  exact ⟨hdigits, List.append_cancel_left hrest⟩

/-- A bulk string ends where its header says, whatever bytes the payload holds. -/
theorem BulkFrame.append_inj {f g : BulkFrame} (hf : f.WellFormed limits)
    (hg : g.WellFormed limits') {rest rest' : Bytes} (h : f.bytes ++ rest = g.bytes ++ rest') :
    f = g ∧ rest = rest' := by
  obtain ⟨digits, payload⟩ := f
  obtain ⟨digits', payload'⟩ := g
  rw [bytes_append, bytes_append] at h
  obtain ⟨hdigits, htail⟩ :=
    headerLine_append_inj hf.announced.cr_notMem hg.announced.cr_notMem h
  dsimp only at hdigits htail
  subst hdigits
  obtain ⟨hpayload, hrest⟩ := List.append_inj htail (hf.announced.unique hg.announced)
  subst hpayload
  exact ⟨rfl, List.append_cancel_left hrest⟩

theorem itemsBytes_append_inj {items items' : List BulkFrame}
    (hitems : ∀ item ∈ items, item.WellFormed limits)
    (hitems' : ∀ item ∈ items', item.WellFormed limits') (hlength : items.length = items'.length)
    {rest rest' : Bytes} (h : itemsBytes items ++ rest = itemsBytes items' ++ rest') :
    items = items' ∧ rest = rest' := by
  induction items generalizing items' with
  | nil =>
    obtain rfl := List.length_eq_zero_iff.1 hlength.symm
    exact ⟨rfl, h⟩
  | cons item items ih =>
    cases items' with
    | nil => cases hlength
    | cons item' items' =>
      obtain ⟨hitem, hrest⟩ := List.forall_mem_cons.1 hitems
      obtain ⟨hitem', hrest'⟩ := List.forall_mem_cons.1 hitems'
      rw [itemsBytes_cons, itemsBytes_cons, List.append_assoc, List.append_assoc] at h
      obtain ⟨rfl, htail⟩ := BulkFrame.append_inj hitem hitem' h
      obtain ⟨rfl, hend⟩ := ih hrest hrest' (Nat.succ.inj hlength) htail
      exact ⟨rfl, hend⟩

namespace Frame

/-- The form of a frame shows in its first byte. -/
theorem ping_append_ne {word : Bytes} (h : Bytes.sameWord word pingWord = true) {mark : UInt8}
    (hmark : mark = Encoding.arrayMark ∨ mark = Encoding.bulkMark) (rest tail : Bytes) :
    (Frame.ping word).bytes ++ rest ≠ mark :: tail := by
  cases word with
  | nil => cases h
  | cons b word =>
    intro heq
    obtain ⟨harray, hbulk⟩ := head_of_sameWord_ping h
    obtain rfl := (List.cons.inj heq).1
    exact hmark.elim harray hbulk

/-- **Bytes begin with one frame at most**, even where two different limits are looked at. -/
theorem append_inj {f g : Frame} (hf : f.WellFormed limits) (hg : g.WellFormed limits')
    {rest rest' : Bytes} (h : f.bytes ++ rest = g.bytes ++ rest') : f = g ∧ rest = rest' := by
  have hmarks : Encoding.arrayMark ≠ Encoding.bulkMark := by decide
  cases f with
  | array digits items =>
    cases g with
    | array digits' items' =>
      obtain ⟨hdigits, -, -, hitems⟩ := hf
      obtain ⟨hdigits', -, -, hitems'⟩ := hg
      rw [bytes, bytes, List.append_assoc, List.append_assoc] at h
      obtain ⟨rfl, htail⟩ := headerLine_append_inj hdigits.cr_notMem hdigits'.cr_notMem h
      obtain ⟨rfl, hend⟩ :=
        itemsBytes_append_inj hitems hitems' (hdigits.unique hdigits') htail
      exact ⟨rfl, hend⟩
    | bulk item' => exact absurd (List.cons.inj h).1 hmarks
    | ping word' => exact (ping_append_ne hg (.inl rfl) _ _ h.symm).elim
  | bulk item =>
    cases g with
    | array digits' items' => exact absurd (List.cons.inj h).1 hmarks.symm
    | bulk item' =>
      obtain ⟨rfl, hend⟩ := BulkFrame.append_inj hf hg h
      exact ⟨rfl, hend⟩
    | ping word' => exact (ping_append_ne hg (.inr rfl) _ _ h.symm).elim
  | ping word =>
    cases g with
    | array digits' items' => exact (ping_append_ne hf (.inl rfl) _ _ h).elim
    | bulk item' => exact (ping_append_ne hf (.inr rfl) _ _ h).elim
    | ping word' =>
      have hlength : word.length = word'.length :=
        (Bytes.length_eq_of_sameWord hf).trans (Bytes.length_eq_of_sameWord hg).symm
      rw [bytes, bytes, List.append_assoc, List.append_assoc] at h
      obtain ⟨rfl, htail⟩ := List.append_inj h hlength
      exact ⟨rfl, List.append_cancel_left htail⟩

/-- The shortest requests are the ping and an empty bulk string. -/
theorem six_le_length {f : Frame} (h : f.WellFormed limits) : 6 ≤ f.bytes.length := by
  have := six_mul_length_args_le h
  have := List.length_pos_iff.2 (args_ne_nil h)
  omega

end Frame

/-! ### Division -/

/-- The bytes are the frames `fs` and after them `rest`, which does not begin with a frame. -/
structure Divides (limits : Limits) (bs : Bytes) (fs : List Frame) (rest : Bytes) : Prop where
  wellFormed : ∀ f ∈ fs, f.WellFormed limits
  bytes : bs = framesBytes fs ++ rest
  stops : ∀ f : Frame, f.WellFormed limits → ¬f.bytes <+: rest

namespace Divides

variable {bs rest rest' : Bytes} {fs fs' gs : List Frame}

theorem cons (h : Divides limits bs fs rest) {f : Frame} (hf : f.WellFormed limits) :
    Divides limits (f.bytes ++ bs) (f :: fs) rest where
  wellFormed := List.forall_mem_cons.2 ⟨hf, h.wellFormed⟩
  bytes := by rw [h.bytes, framesBytes_cons, List.append_assoc]
  stops := h.stops

/-- **Frames that the bytes begin with are the first frames of the division.** -/
theorem isPrefix (h : Divides limits bs fs rest) (hgs : ∀ g ∈ gs, g.WellFormed limits)
    (hbegins : framesBytes gs <+: bs) : gs <+: fs := by
  induction gs generalizing bs fs with
  | nil => exact List.nil_prefix
  | cons g gs ih =>
    obtain ⟨hg, hmore⟩ := List.forall_mem_cons.1 hgs
    obtain ⟨tail, htail⟩ := hbegins
    rw [h.bytes, framesBytes_cons, List.append_assoc] at htail
    cases fs with
    | nil => exact absurd ⟨_, htail⟩ (h.stops g hg)
    | cons f fs =>
      obtain ⟨hf, hfs⟩ := List.forall_mem_cons.1 h.wellFormed
      rw [framesBytes_cons, List.append_assoc] at htail
      obtain ⟨rfl, hrest⟩ := Frame.append_inj hg hf htail
      exact (List.prefix_cons_inj g).2 (ih ⟨hfs, rfl, h.stops⟩ hmore ⟨tail, hrest⟩)

theorem unique (h : Divides limits bs fs rest) (h' : Divides limits bs fs' rest') :
    fs = fs' ∧ rest = rest' := by
  have hle := h'.isPrefix h.wellFormed ⟨rest, h.bytes.symm⟩
  have hge := h.isPrefix h'.wellFormed ⟨rest', h'.bytes.symm⟩
  obtain rfl := hle.eq_of_length_le hge.length_le
  exact ⟨rfl, List.append_cancel_left (h.bytes.symm.trans h'.bytes)⟩

end Divides

theorem exists_divides (limits : Limits) (bs : Bytes) : ∃ fs rest, Divides limits bs fs rest := by
  induction hn : bs.length using Nat.strong_induction_on generalizing bs with
  | _ n ih =>
    by_cases hframe : ∃ f : Frame, f.WellFormed limits ∧ f.bytes <+: bs
    · obtain ⟨f, hf, tail, rfl⟩ := hframe
      have hshorter : tail.length < n := by
        have := Frame.six_le_length hf
        rw [← hn, List.length_append]
        omega
      obtain ⟨fs, rest, h⟩ := ih _ hshorter tail rfl
      exact ⟨f :: fs, rest, h.cons hf⟩
    · refine ⟨[], bs, by simp, rfl, ?_⟩
      intro f hf hbegins
      exact hframe ⟨f, hf, hbegins⟩

/-- **Bytes divide into requests in exactly one way.** -/
theorem existsUnique_divides (limits : Limits) (bs : Bytes) :
    ∃! parts : List Frame × Bytes, Divides limits bs parts.1 parts.2 := by
  obtain ⟨fs, rest, h⟩ := exists_divides limits bs
  refine ⟨(fs, rest), h, ?_⟩
  rintro ⟨fs', rest'⟩ h'
  obtain ⟨rfl, rfl⟩ := h'.unique h
  rfl

end Wire

namespace Batch

open Wire

variable {limits : Limits} {a a' : Arena} {bs rest : Bytes} {fs : List Frame}

/-! ### Reading the division -/

/-- **A batch holds frames from the start of the bytes**, whatever room there is in the arena. -/
theorem frames_of_read_some (hl : limits.maxBulk ≤ Limits.standard.maxBulk)
    (hbs : bs.Addressable) {r : Read} (h : Batch.read limits a bs = (.ok (some r), a')) :
    ∃ fs, fs ≠ [] ∧ (∀ f ∈ fs, f.WellFormed limits) ∧ framesBytes fs <+: bs ∧
      r.batch.toList = fs.map (fun f => requestOf f.args) ∧
      r.consumed = (framesBytes fs).length := by
  obtain ⟨f, hf, hfirst, hroom⟩ := frame_of_read_some hl hbs h
  rcases read_of_first hl hbs hf hfirst hroom with
    ⟨gs, b, a₁, hgs, hbegins, htoList, -, hread⟩ | hover
  · rw [hread] at h
    cases h
    exact ⟨f :: gs, List.cons_ne_nil f gs, hgs, hbegins, htoList, rfl⟩
  · obtain ⟨_, _, hread⟩ := read_of_overgrown hbs hover
    rw [hread] at h
    cases h

/-- The arena can pay for all the requests that the bytes begin with. -/
def Affordable (limits : Limits) (a : Arena) (bs : Bytes) : Prop :=
  ∀ fs : List Frame, (∀ f ∈ fs, f.WellFormed limits) → framesBytes fs <+: bs →
    a.used + cost fs ≤ a.limit

/-- A growable arena with nothing in use can pay for all requests in so many bytes. -/
theorem affordable_of_length_le (hgrow : a.growable = true) (hused : a.used = 0)
    (hlen : bs.length ≤ 12582917) : Affordable limits a bs := by
  intro fs hfs hbegins
  have hcost := cost_le_maxCapacity hfs (hbegins.length_le.trans hlen)
  rw [Arena.limit, if_pos hgrow, hused, Nat.zero_add]
  exact hcost

/-- It can pay for four mebibytes of requests, which is the largest receive buffer. -/
theorem affordable_of_growable (hgrow : a.growable = true) (hused : a.used = 0)
    (hlen : bs.length ≤ 4 * 1024 * 1024) : Affordable limits a bs :=
  affordable_of_length_le hgrow hused (hlen.trans (by decide))

/-- Nothing is lost of requests that can be paid for. -/
theorem Affordable.not_overgrown (h : Affordable limits a bs) : ¬Overgrown limits a bs := by
  intro hover
  obtain ⟨fs, f, hfs, hbegins, -, hfull⟩ := hover
  have := h _ hfs hbegins
  omega

/-- **All frames of the division are taken in** if they can be paid for. -/
theorem Affordable.read_of_divides (h : Affordable limits a bs)
    (hl : limits.maxBulk ≤ Limits.standard.maxBulk) (hbs : bs.Addressable)
    (hdiv : Divides limits bs fs rest) (hne : fs ≠ []) :
    ∃ b a', b.toList = fs.map (fun f => requestOf f.args) ∧
      Batch.read limits a bs = (.ok (some ⟨b, (framesBytes fs).length⟩), a') := by
  obtain ⟨f, fs, rfl⟩ := List.exists_cons_of_ne_nil hne
  have hf := (List.forall_mem_cons.1 hdiv.wellFormed).1
  have hfirst : f.bytes <+: bs := by
    rw [hdiv.bytes, framesBytes_cons, List.append_assoc]
    exact List.prefix_append ..
  have hroom := h [f] (by simpa using hf) (by simpa using hfirst)
  rcases read_of_first hl hbs hf hfirst hroom with
    ⟨gs, b, a', hgs, ⟨rest', hrest'⟩, htoList, hunpaid, hread⟩ | hover
  · -- a further frame could be paid for, so there is none
    have hdiv' : Divides limits bs (f :: gs) rest' := by
      refine ⟨hgs, hrest'.symm, ?_⟩
      intro g hg hbegins
      have hmore : framesBytes (f :: gs ++ [g]) <+: bs := by
        rw [← hrest', framesBytes_append, List.prefix_append_right_inj, framesBytes_cons,
          framesBytes_nil, List.append_nil]
        exact hbegins
      have hwf : ∀ g' ∈ f :: gs ++ [g], g'.WellFormed limits :=
        List.forall_mem_append.2 ⟨hgs, by simpa using hg⟩
      have := hunpaid g hg hmore
      have := h _ hwf hmore
      have := cost_add_argsCost_le (f :: gs) g
      omega
    rw [(hdiv.unique hdiv').1]
    exact ⟨b, a', htoList, hread⟩
  · exact absurd hover h.not_overgrown

/-- **Reading takes in exactly the requests that the bytes divide into.** It gives a batch exactly
if there is a frame at the start of the bytes. The batch then holds the requests of all the frames
of the division, byte for byte and in order, and it takes as many bytes as they do. And bytes divide
in one way only. -/
theorem read_eq_some_iff (hl : limits.maxBulk ≤ Limits.standard.maxBulk) (hbs : bs.Addressable)
    (hroom : Affordable limits a bs) :
    (∀ (requests : List (List Bytes)) (used : Nat),
      (∃ b a', Batch.read limits a bs = (.ok (some ⟨b, used⟩), a') ∧
          b.toList.map Slots.toList = requests) ↔
        ∃ fs rest, fs ≠ [] ∧ Divides limits bs fs rest ∧ used = (framesBytes fs).length ∧
          fs.map Frame.args = requests) ∧
      ∃! parts : List Frame × Bytes, Divides limits bs parts.1 parts.2 := by
  refine ⟨?_, existsUnique_divides limits bs⟩
  intro requests used
  constructor
  · rintro ⟨b, a', hread, rfl⟩
    obtain ⟨fs, rest, hdiv⟩ := exists_divides limits bs
    obtain ⟨gs, hgs, hwf, hbegins, -⟩ := frames_of_read_some hl hbs hread
    have hne : fs ≠ [] := by
      intro hnil
      subst hnil
      exact hgs (List.prefix_nil.1 (hdiv.isPrefix hwf hbegins))
    obtain ⟨b', a₁, htoList, hread'⟩ := hroom.read_of_divides hl hbs hdiv hne
    rw [hread] at hread'
    cases hread'
    exact ⟨fs, rest, hne, hdiv, rfl, by rw [htoList, map_toList_requestOf]⟩
  · rintro ⟨fs, rest, hne, hdiv, rfl, rfl⟩
    obtain ⟨b, a', htoList, hread⟩ := hroom.read_of_divides hl hbs hdiv hne
    exact ⟨b, a', hread, by rw [htoList, map_toList_requestOf]⟩

/-- Two requests and the beginning of a third. A payload looks like a header here, and a length is
written with a leading zero. -/
theorem read_get_and_ping :
    let a : Arena := ⟨1024, 0, true, by decide, by decide⟩
    let bs := Bytes.ascii "*2\r\n$3\r\nGET\r\n$04\r\n\r\n$1\r\nPiNg\r\n$9"
    bs.Addressable ∧ Affordable Limits.standard a bs ∧
      ∃ b a', Batch.read Limits.standard a bs = (.ok (some ⟨b, 30⟩), a') ∧
        b.toList.map Slots.toList =
          [[Bytes.ascii "GET", Bytes.ascii "\r\n$1"], [Bytes.ascii "PiNg"]] := by
  intro a bs
  have hbs : bs.Addressable := by decide
  have hroom : Affordable Limits.standard a bs := affordable_of_growable rfl rfl (by decide)
  let get := Frame.array (Bytes.ascii "2")
    [⟨Bytes.ascii "3", Bytes.ascii "GET"⟩, ⟨Bytes.ascii "04", Bytes.ascii "\r\n$1"⟩]
  let ping := Frame.ping (Bytes.ascii "PiNg")
  have hdiv : Divides Limits.standard bs [get, ping] (Bytes.ascii "$9") := by
    refine ⟨by decide, by decide, ?_⟩
    intro f hf hbegins
    exact absurd ((Frame.six_le_length hf).trans hbegins.length_le) (by decide)
  refine ⟨hbs, hroom, ?_⟩
  exact ((read_eq_some_iff (Nat.le_refl _) hbs hroom).1 _ _).2
    ⟨_, _, List.cons_ne_nil _ _, hdiv, by decide, by decide⟩

end Batch
end RespStore
