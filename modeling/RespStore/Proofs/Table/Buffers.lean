import RespStore.Proofs.Table.Growth

/-!
# RespStore.Proofs.Table.Buffers

What the buffers of values come to. An entry is made with a buffer of exactly the right size.
Another value for it is put into the buffer it has, if that is large enough, and into a fresh copy
otherwise. So the room of a buffer is the greatest length of all values that the entry has had
(`Blob.Fits.replace`).

To say so of a run, the values that were set for a key since it was last inserted are read off the
calls and their answers (`valuesSince`). A call leaves the entries of all other keys where and as
they are, but for their links (`storedAt?`), and so each entry goes on fitting the values of its own
key, whichever slot it is in and whatever was there before it (`Remembers.perform`).

`Buffer` is a buffer in memory, where putting in a shorter value leaves the end of a longer one in
the cells behind it. That end is not part of the value (`Blob.Takes`).
-/

namespace RespStore

/-! ### One buffer -/

/-- A buffer in memory: its cells, and the number of bytes in it. -/
structure Buffer where
  cells : Bytes
  length : Nat
  deriving Repr, DecidableEq

namespace Buffer

/-- The buffer as a blob, of which only the bytes and the room are known. -/
def blob (b : Buffer) : Blob := .owned (b.cells.take b.length) b.cells.length

/-- The buffer with no bytes in it. Its cells are not touched. -/
def clear (b : Buffer) : Buffer := { b with length := 0 }

/-- Puts bytes behind those in the buffer. There have to be cells for them. -/
def extend (b : Buffer) (source : Bytes) : Option Buffer :=
  let stop := b.length + source.length
  if stop ≤ b.cells.length then some ⟨b.cells.take b.length ++ source ++ b.cells.drop stop, stop⟩
  else none

/-- Puts bytes in the place of those in the buffer if they fit, and tells whether they do. -/
def overwrite (b : Buffer) (source : Bytes) : Option (Bool × Buffer) :=
  if source.length ≤ b.cells.length then do
    let b ← b.clear.extend source
    some (true, b)
  else some (false, b)

variable {b : Buffer} {source : Bytes}

theorem overwrite_of_le (h : source.length ≤ b.cells.length) :
    b.overwrite source =
      some (true, ⟨source ++ b.cells.drop source.length, source.length⟩) := by
  have hextend : b.clear.extend source =
      some ⟨source ++ b.cells.drop source.length, source.length⟩ := by
    simp only [extend, clear, List.take_zero, List.nil_append, Nat.zero_add]
    exact if_pos h
  rw [overwrite, if_pos h, hextend]
  rfl

theorem overwrite_of_lt (h : b.cells.length < source.length) :
    b.overwrite source = some (false, b) := if_neg (Nat.not_le.2 h)

end Buffer

namespace Blob

/-- The blob has come from setting these values one after the other, the first of them in a fresh
copy. -/
structure Fits (b : Blob) (values : List Bytes) : Prop where
  isOwned : b.isOwned = true
  last : values.getLast? = some b.bytes
  greatest : ∃ v ∈ values, v.length = b.capacity
  le : ∀ v ∈ values, v.length ≤ b.capacity

variable {b : Blob} {values : List Bytes} {value : Bytes}

theorem fits_copyOf (value : Bytes) : (copyOf value).Fits [value] where
  isOwned := rfl
  last := rfl
  greatest := ⟨value, List.mem_singleton_self value, rfl⟩
  le := by
    intro v hv
    rw [List.mem_singleton.1 hv]
    exact Nat.le_refl _

/-- A value that fits goes into the buffer there is. -/
theorem replace_of_le (howned : b.isOwned = true) (h : value.length ≤ b.capacity) :
    b.replace value = .owned value b.capacity := by
  cases b with
  | view bytes => cases howned
  | owned bytes capacity =>
    have hle : value.length ≤ capacity := h
    rw [replace, overwrite?, if_pos hle]
    rfl

/-- A value that does not fit is copied. -/
theorem replace_of_lt (h : b.capacity < value.length) : b.replace value = copyOf value := by
  cases b with
  | view bytes => rfl
  | owned bytes capacity =>
    have hnot : ¬value.length ≤ capacity := Nat.not_le.2 h
    rw [replace, overwrite?, if_neg hnot]
    rfl

/-- The room is less than a value needs if and only if all values before it were shorter. -/
theorem Fits.capacity_lt_iff (h : b.Fits values) :
    b.capacity < value.length ↔ ∀ v ∈ values, v.length < value.length := by
  constructor
  · intro hlt v hv
    exact Nat.lt_of_le_of_lt (h.le v hv) hlt
  · intro hall
    obtain ⟨v, hv, hlength⟩ := h.greatest
    exact hlength ▸ hall v hv

/-- **One value more.** -/
theorem Fits.replace (h : b.Fits values) (value : Bytes) :
    (b.replace value).Fits (values ++ [value]) := by
  have hlast (c : Blob) (hc : c.bytes = value) :
      (values ++ [value]).getLast? = some c.bytes := by
    rw [hc, List.getLast?_append_of_ne_nil _ (List.cons_ne_nil _ _)]
    rfl
  rcases Nat.lt_or_ge b.capacity value.length with hlong | hfits
  · rw [replace_of_lt hlong]
    have hold (v : Bytes) (hv : v ∈ values) : v.length ≤ value.length :=
      Nat.le_of_lt (h.capacity_lt_iff.1 hlong v hv)
    exact ⟨rfl, hlast _ rfl, ⟨value, by simp, rfl⟩,
      List.forall_mem_append.2 ⟨hold, List.forall_mem_singleton.2 (Nat.le_refl _)⟩⟩
  · rw [replace_of_le h.isOwned hfits]
    obtain ⟨v, hv, hlength⟩ := h.greatest
    exact ⟨rfl, hlast _ rfl, ⟨v, List.mem_append_left _ hv, hlength⟩,
      List.forall_mem_append.2 ⟨h.le, List.forall_mem_singleton.2 hfits⟩⟩

/-- What becomes of the buffer of a blob, which has had these values, when it is given another. -/
structure Takes (b : Blob) (values : List Bytes) (value : Bytes) (after : Blob) : Prop where
  bytes : after.bytes = value
  /-- The buffer is replaced if and only if the value is longer than each one before it. -/
  replaced_iff : b.overwrite? value = none ↔ ∀ v ∈ values, v.length < value.length
  replaced : b.overwrite? value = none →
    after = copyOf value ∧ ∀ c : Buffer, c.blob = b → c.overwrite value = some (false, c)
  /-- Otherwise it is the same buffer, whose cells behind the value are as they were. -/
  kept : b.overwrite? value ≠ none →
    after = .owned value b.capacity ∧ ∀ c : Buffer, c.blob = b →
      ∃ c', c.overwrite value = some (true, c') ∧ c'.blob = after ∧
        c'.cells.drop value.length = c.cells.drop value.length

theorem overwrite?_eq_none_iff (howned : b.isOwned = true) :
    b.overwrite? value = none ↔ b.capacity < value.length := by
  cases b with
  | view bytes => cases howned
  | owned bytes capacity => simp [overwrite?, Blob.capacity]

theorem Fits.takes (h : b.Fits values) (value : Bytes) :
    b.Takes values value (b.replace value) where
  bytes := bytes_replace b value
  replaced_iff := (overwrite?_eq_none_iff h.isOwned).trans h.capacity_lt_iff
  replaced := by
    intro hnone
    have hlt := (overwrite?_eq_none_iff h.isOwned).1 hnone
    refine ⟨replace_of_lt hlt, ?_⟩
    rintro c rfl
    exact Buffer.overwrite_of_lt hlt
  kept := by
    intro hsome
    have hle : value.length ≤ b.capacity :=
      Nat.le_of_not_lt (mt (overwrite?_eq_none_iff h.isOwned).2 hsome)
    rw [replace_of_le h.isOwned hle]
    refine ⟨rfl, ?_⟩
    rintro c rfl
    have hcells : value.length ≤ c.cells.length := hle
    refine ⟨_, Buffer.overwrite_of_le hcells, ?_, List.drop_left⟩
    have hlength : (value ++ c.cells.drop value.length).length = c.cells.length := by
      rw [List.length_append, List.length_drop]
      omega
    simp only [Buffer.blob, List.take_left, hlength]
    rfl

end Blob

/-! ### Entries without their links -/

/-- The entry without its link. -/
def Entry.unlinked (e : Entry) : Entry := { e with next := none }

theorem Entry.isFor_iff {e : Entry} {hash : UInt64} {key : Bytes} :
    e.isFor hash key = true ↔ e.hash = hash ∧ e.key.bytes = key := by
  simp [isFor]

/-- The entry in the slot, without its link. -/
def Slot.stored? (s : Slot) : Option Entry := s.content?.map Entry.unlinked

namespace Table

variable {t t' : Table} {hash : UInt64} {key value : Bytes} {index : Nat} {e : Entry}

/-- The entry at an index, without its link. -/
def storedAt? (t : Table) : Nat → Option Entry := view Slot.stored? t.slots

theorem storedAt?_eq_map (t : Table) (index : Nat) :
    t.storedAt? index = (t.entryAt? index).map Entry.unlinked := by
  simp only [storedAt?, view, entryAt?, Option.map_bind]
  rfl

theorem storedAt?_of_entryAt? (he : t.entryAt? index = some e) :
    t.storedAt? index = some e.unlinked := by
  rw [storedAt?_eq_map, he, Option.map_some]

/-- An entry is where its key is found. -/
theorem WellFormed.find?_of_storedAt (h : t.WellFormed) (he : t.storedAt? index = some e) :
    t.find? e.hash e.key.bytes = some index := by
  rw [storedAt?_eq_map, Option.map_eq_some_iff] at he
  obtain ⟨e₀, he₀, rfl⟩ := he
  exact h.find?_eq_some_iff.2 ⟨e₀.value.bytes, bindingAt?_eq_some_iff.2 ⟨e₀, he₀, rfl⟩⟩

/-- Slots that differ in the links of entries only. -/
theorem storedAt?_congr (h : t'.slots.map Slot.detached = t.slots.map Slot.detached) :
    t'.storedAt? = t.storedAt? := by
  have hview (slots : Array Slot) (index : Nat) :
      view Slot.stored? slots index = (slots.map Slot.detached)[index]?.bind Slot.content? := by
    rw [Array.getElem?_map, Option.bind_map]
    refine congrArg _ (funext ?_)
    intro s
    exact (Slot.content?_update _ s).symm
  funext index
  rw [storedAt?, storedAt?, hview, hview, h]

theorem storedAt?_extend (t : Table) : t.extend.2.storedAt? = t.storedAt? := by
  rw [storedAt?, extend, view_push]
  refine Function.update_eq_self_iff.2 ?_
  simp [view, Slot.stored?, Slot.content?]

theorem storedAt?_freshSlot (t : Table) : t.freshSlot.2.storedAt? = t.storedAt? := by
  have hgrow : t.grow.2.storedAt? = t.storedAt? := by
    rw [grow]
    split
    · rfl
    · exact storedAt?_congr (relink_detached t _)
  simp only [freshSlot]
  by_cases hfull : t.slots.size = t.capacity
  · rw [if_pos hfull]
    generalize t.grow = grown at hgrow
    obtain ⟨result, t₁⟩ := grown
    cases result with
    | error error => exact hgrow
    | ok => exact (storedAt?_extend t₁).trans hgrow
  · rw [if_neg hfull]
    exact storedAt?_extend t

theorem storedAt?_takeSlot (t : Table) : t.takeSlot.2.storedAt? = t.storedAt? := by
  rw [takeSlot]
  split
  · split
    · rfl
    · exact storedAt?_freshSlot t
  · exact storedAt?_freshSlot t

theorem storedAt?_place (h : index < t.slots.size) (hash : UInt64) (key value : Bytes) :
    (t.place index hash key value).storedAt? =
      Function.update t.storedAt? index
        (some ⟨hash, none, Blob.copyOf key, Blob.copyOf value⟩) := by
  rw [storedAt?, place, view_setIfInBounds h]
  rfl

theorem storedAt?_unlink (t : Table) (hash : UInt64) (p : Place) :
    (t.unlink hash p).storedAt? = t.storedAt? := by
  rw [unlink]
  split
  · rfl
  · next previous _ =>
    rw [storedAt?, view_modify]
    refine Function.update_eq_self_iff.2 ?_
    refine congrArg _ (funext ?_)
    intro s
    cases s <;> rfl

theorem storedAt?_release (h : index < t.slots.size) :
    (t.release index).storedAt? = Function.update t.storedAt? index none := by
  rw [storedAt?, release, view_setIfInBounds h]
  rfl

/-! ### One call -/

/-- Another value for a key that is present goes to its slot. -/
theorem set_of_find? (hfind : t.find? hash key = some index)
    (he : t.slots[index]? = some (.occupied e)) (value : Bytes) :
    t.set hash key value = (.ok .updated, { t with
      slots := t.slots.setIfInBounds index
        (.occupied { e with value := e.value.replace value }) }) := by
  have hmodify (f : Slot → Slot) : t.slots.modify index f =
      t.slots.setIfInBounds index (f (.occupied e)) := by
    apply Array.ext_getElem?
    intro i
    rw [Array.getElem?_modify, Array.getElem?_setIfInBounds]
    by_cases hi : index = i
    · subst hi
      obtain ⟨hlt, hslot⟩ := Array.getElem?_eq_some_iff.1 he
      simp [hlt, hslot]
    · simp [hi]
  simp only [set, hfind, hmodify]
  rfl

/-- An update changes the value of the entry that its key is found at. -/
theorem WellFormed.storedAt?_updated (h : t.WellFormed)
    (hset : t.set hash key value = (.ok .updated, t')) :
    ∃ index e, t.find? hash key = some index ∧ t.storedAt? index = some e ∧
      e.isFor hash key = true ∧
      t'.storedAt? =
        Function.update t.storedAt? index (some { e with value := e.value.replace value }) := by
  cases hfind : t.find? hash key with
  | none =>
    rw [set, hfind] at hset
    dsimp only at hset
    split at hset <;> cases hset
  | some index =>
    obtain ⟨old, hold⟩ := h.find?_eq_some_iff.1 hfind
    obtain ⟨e, he, hbinding⟩ := bindingAt?_eq_some_iff.1 hold
    have hslot := entryAt?_eq_some_iff.1 he
    rw [set_of_find? hfind hslot, Prod.mk.injEq] at hset
    obtain ⟨-, rfl⟩ := hset
    refine ⟨index, e.unlinked, rfl, storedAt?_of_entryAt? he,
      (Entry.binding_eq_iff.1 hbinding).1, ?_⟩
    rw [storedAt?, view_setIfInBounds (Array.getElem?_eq_some_iff.1 hslot).1]
    rfl

/-- An insertion makes an entry of copies, where there was none for its key. -/
theorem WellFormed.storedAt?_inserted (h : t.WellFormed)
    (hset : t.set hash key value = (.ok .inserted, t')) :
    t.find? hash key = none ∧ ∃ index, t'.storedAt? = Function.update t.storedAt? index
      (some ⟨hash, none, Blob.copyOf key, Blob.copyOf value⟩) := by
  cases hfind : t.find? hash key with
  | some index =>
    rw [set, hfind] at hset
    cases hset
  | none =>
    refine ⟨rfl, ?_⟩
    rw [set, hfind] at hset
    have hstored := t.storedAt?_takeSlot
    rcases h.takeSlot_cases with ⟨-, index, t₁, htake, hreserved⟩ | ⟨-, htake⟩
    · simp only [htake] at hset hstored
      cases hset
      exact ⟨index, hstored ▸ storedAt?_place hreserved.index_lt hash key value⟩
    · simp only [htake] at hset
      cases hset

/-- Removing a key leaves the slot that it was found at without an entry. -/
theorem WellFormed.storedAt?_erased (h : t.WellFormed) (herase : t.erase hash key = (true, t')) :
    ∃ index, t.find? hash key = some index ∧
      t'.storedAt? = Function.update t.storedAt? index none := by
  rw [erase] at herase
  cases hlocate : t.locate? hash key with
  | none =>
    rw [hlocate] at herase
    cases herase
  | some p =>
    rw [hlocate] at herase
    cases herase
    have hfind : t.find? hash key = some p.index := by rw [find?, hlocate, Option.map_some]
    obtain ⟨old, hold⟩ := h.find?_eq_some_iff.1 hfind
    have hlt : p.index < t.slots.size := (isSome_bindingAt?_iff.1 (by simp [hold])).1
    refine ⟨p.index, hfind, ?_⟩
    rw [storedAt?_release (by rwa [slots_size_unlink]), storedAt?_unlink]

/-! ### What was set for a key -/

/-- The values set for a key since it was last inserted, after one more call with its answer. A key
that is removed has none, and neither has one that was refused. -/
def remember (hash : UInt64) (key : Bytes) (values : List Bytes) : Call × Answer → List Bytes
  | (.set hash' key' value, .stored (.ok _)) =>
    if hash = hash' ∧ key = key' then values ++ [value] else values
  | (.erase hash' key', _) => if hash = hash' ∧ key = key' then [] else values
  | _ => values

theorem remember_set (vs : List Bytes) (stored : Stored) :
    remember hash key vs (.set hash key value, .stored (.ok stored)) = vs ++ [value] :=
  if_pos ⟨rfl, rfl⟩

theorem remember_erase (vs : List Bytes) {answer : Answer} :
    remember hash key vs (.erase hash key, answer) = [] := if_pos ⟨rfl, rfl⟩

/-- The values that were set for a key since it was last inserted. -/
def valuesSince (hash : UInt64) (key : Bytes) (log : List (Call × Answer)) : List Bytes :=
  log.foldl (remember hash key) []

/-- The buffer of each entry fits the values of its key, and a key without an entry has none. -/
structure Remembers (t : Table) (values : UInt64 → Bytes → List Bytes) : Prop where
  wellFormed : t.WellFormed
  fits : ∀ index e, t.storedAt? index = some e → e.value.Fits (values e.hash e.key.bytes)
  absent : ∀ hash key, t.get? hash key = none → values hash key = []

variable {values values' : UInt64 → Bytes → List Bytes}

theorem remembers_create (wanted maxWanted : Nat) :
    (create wanted maxWanted).Remembers fun _ _ => [] where
  wellFormed := wellFormed_create wanted maxWanted
  fits := by
    intro index e he
    simp [storedAt?, view, create] at he
  absent _ _ _ := rfl

namespace Remembers

/-- **One key changed**, in the slot where it is found, if it is found at all. -/
theorem update (h : t.Remembers values) {value? : Option Bytes}
    (hbinds : t.Binds hash key value? t')
    (hfind : ∀ i, t.find? hash key = some i → i = index) {new? : Option Entry}
    (hstored : t'.storedAt? = Function.update t.storedAt? index new?)
    (hnew : ∀ e, new? = some e → e.isFor hash key = true ∧ e.value.Fits (values' hash key))
    (habsent : value? = none → values' hash key = [])
    (hothers : ∀ hash' key', ¬(hash' = hash ∧ key' = key) →
      values' hash' key' = values hash' key') : t'.Remembers values' where
  wellFormed := hbinds.wellFormed
  fits := by
    intro i e he
    rw [hstored] at he
    by_cases hi : i = index
    · subst hi
      rw [Function.update_self] at he
      obtain ⟨hfor, hfits⟩ := hnew e he
      obtain ⟨rfl, rfl⟩ := Entry.isFor_iff.1 hfor
      exact hfits
    · -- the slot of another key
      rw [Function.update_of_ne hi] at he
      rw [hothers]
      · exact h.fits i e he
      · rintro ⟨rfl, rfl⟩
        exact hi (hfind i (h.wellFormed.find?_of_storedAt he))
  absent := by
    intro hash' key' hnone
    rw [hbinds.get?_eq] at hnone
    by_cases hsame : hash' = hash ∧ key' = key
    · obtain ⟨rfl, rfl⟩ := hsame
      rw [if_pos ⟨rfl, rfl⟩] at hnone
      exact habsent hnone
    · rw [if_neg hsame] at hnone
      rw [hothers hash' key' hsame]
      exact h.absent hash' key' hnone

/-- A stored value is one more value of its key. -/
theorem set (h : t.Remembers values) (hash : UInt64) (key value : Bytes) :
    (t.set hash key value).2.Remembers fun hash' key' => remember hash' key' (values hash' key')
      (.set hash key value, .stored (t.set hash key value).1) := by
  have hwf := h.wellFormed
  rcases hwf.set_cases hash key value with
    ⟨old, t', -, hset, hbinds, -⟩ | ⟨t', habsent, -, hset, hbinds, -⟩ | ⟨-, -, hset⟩
  · obtain ⟨index, e, hfind, he, hfor, hstored⟩ := hwf.storedAt?_updated hset
    rw [hset]
    refine h.update hbinds ?_ hstored ?_ (by simp) (fun _ _ hne => if_neg hne)
    · intro i hi
      exact Option.some.inj (hi.symm.trans hfind)
    · intro new hnew
      cases hnew
      obtain ⟨rfl, rfl⟩ := Entry.isFor_iff.1 hfor
      rw [remember_set]
      exact ⟨hfor, (h.fits index e he).replace value⟩
  · obtain ⟨hfind, index, hstored⟩ := hwf.storedAt?_inserted hset
    rw [hset]
    refine h.update hbinds (by simp [hfind]) hstored ?_ (by simp) (fun _ _ hne => if_neg hne)
    intro new hnew
    cases hnew
    rw [remember_set, h.absent hash key habsent]
    exact ⟨Entry.isFor_iff.2 ⟨rfl, rfl⟩, Blob.fits_copyOf value⟩
  · rw [hset]
    exact h

/-- A key that is removed is forgotten. -/
theorem erase (h : t.Remembers values) (hash : UInt64) (key : Bytes) :
    (t.erase hash key).2.Remembers fun hash' key' => remember hash' key' (values hash' key')
      (.erase hash key, .erased (t.erase hash key).1) := by
  rcases h.wellFormed.erase_cases hash key with ⟨old, t', -, herase, hbinds, -⟩ | ⟨habsent, herase⟩
  · obtain ⟨index, hfind, hstored⟩ := h.wellFormed.storedAt?_erased herase
    rw [herase]
    refine h.update hbinds ?_ hstored (by simp) (fun _ => remember_erase _)
      (fun _ _ hne => if_neg hne)
    intro i hi
    exact Option.some.inj (hi.symm.trans hfind)
  · rw [herase]
    have hsame (hash' : UInt64) (key' : Bytes) :
        remember hash' key' (values hash' key') (.erase hash key, .erased false) =
          values hash' key' := by
      by_cases hkey : hash' = hash ∧ key' = key
      · obtain ⟨rfl, rfl⟩ := hkey
        rw [remember_erase, h.absent _ _ habsent]
      · exact if_neg hkey
    simp only [hsame]
    exact h

/-- **One call.** -/
theorem perform (h : t.Remembers values) (call : Call) :
    (t.perform call).2.Remembers fun hash key =>
      remember hash key (values hash key) (call, (t.perform call).1) := by
  cases call with
  | set hash key value => exact h.set hash key value
  | get hash key => exact h
  | erase hash key => exact h.erase hash key

/-- **A run of calls.** -/
theorem run (h : t.Remembers values) (calls : List Call) :
    let run := Calls.run Table.perform t calls
    run.2.Remembers fun hash key =>
      (calls.zip run.1).foldl (remember hash key) (values hash key) := by
  induction calls generalizing t values with
  | nil => exact h
  | cons call calls ih => exact ih (h.perform call)

/-- What is found for a key is the last of its values. -/
theorem get?_eq (h : t.Remembers values) (hash : UInt64) (key : Bytes) :
    t.get? hash key = (values hash key).getLast? := by
  cases hget : t.get? hash key with
  | none => rw [h.absent hash key hget, List.getLast?_nil]
  | some value =>
    obtain ⟨index, hbinding⟩ := h.wellFormed.get?_eq_some_iff.1 hget
    obtain ⟨e, he, hsays⟩ := bindingAt?_eq_some_iff.1 hbinding
    obtain ⟨hfor, rfl⟩ := Entry.binding_eq_iff.1 hsays
    obtain ⟨rfl, rfl⟩ := Entry.isFor_iff.1 hfor
    exact (h.fits index e.unlinked (storedAt?_of_entryAt? he)).last.symm

end Remembers

/-! ### Runs of calls -/

/-- **The room of a value's buffer is the greatest length that the value has had.** Take any run of
calls, the values that it has set for each key since it last inserted that key, and any entry there
is then. The buffer of the entry has room for the longest of the values of its key and no more, and
it holds the last of them.

Another value is put in the place of it. The buffer is replaced by a copy of the right size if and
only if this value is longer than all those before it, and overwritten where it is otherwise. Either
way the entry has the bytes of the new value and no others, and all else in the table stays as it
is. -/
theorem run_reuses_buffers (wanted maxWanted : Nat) (calls : List Call) :
    let run := Calls.run perform (create wanted maxWanted) calls
    let t := run.2
    let values (hash : UInt64) (key : Bytes) := valuesSince hash key (calls.zip run.1)
    (∀ hash key, t.get? hash key = (values hash key).getLast?) ∧
      ∀ index e, t.slots[index]? = some (.occupied e) →
        e.value.Fits (values e.hash e.key.bytes) ∧
          ∀ value, ∃ after, e.value.Takes (values e.hash e.key.bytes) value after ∧
            t.set e.hash e.key.bytes value = (.ok .updated, { t with
              slots := t.slots.setIfInBounds index (.occupied { e with value := after }) }) := by
  intro run t values
  have hremembers : t.Remembers values := (remembers_create wanted maxWanted).run calls
  refine ⟨hremembers.get?_eq, ?_⟩
  intro index e he
  have hstored : t.storedAt? index = some e.unlinked :=
    storedAt?_of_entryAt? (entryAt?_eq_some_iff.2 he)
  have hfits : e.value.Fits (values e.hash e.key.bytes) := hremembers.fits index e.unlinked hstored
  have hfind : t.find? e.hash e.key.bytes = some index :=
    hremembers.wellFormed.find?_of_storedAt (e := e.unlinked) hstored
  refine ⟨hfits, ?_⟩
  intro value
  exact ⟨e.value.replace value, hfits.takes value, set_of_find? hfind he value⟩

/-- A slot whose last entry had a longer value. The room of the new entry is that of its own values,
and a value as long as the longest of them is put into the same buffer. -/
theorem run_reuses_buffers_next_entry :
    let calls : List Call :=
      [.set 1 [1] [1, 1, 1, 1], .erase 1 [1], .set 2 [2] [5, 6], .set 2 [2] [7]]
    let run := Calls.run perform (create 1 2) calls
    let e : Entry := ⟨2, none, .owned [2] 1, .owned [7] 2⟩
    let values := valuesSince 2 [2] (calls.zip run.1)
    run.2.slots = #[.occupied e] ∧ values = [[5, 6], [7]] ∧ e.value.Fits values ∧
      (run.2.set 2 [2] [8, 9]).2.slots = #[.occupied { e with value := .owned [8, 9] 2 }] ∧
      e.value.Takes values [8, 9] (.owned [8, 9] 2) := by
  intro calls run e values
  have hslots : run.2.slots = #[.occupied e] := by decide
  obtain ⟨-, hentries⟩ := run_reuses_buffers 1 2 calls
  obtain ⟨hfits, hset⟩ := hentries 0 e (by decide)
  obtain ⟨after, htakes, hafter⟩ := hset [8, 9]
  have hkept := (htakes.kept (by decide)).1
  refine ⟨hslots, by decide, hfits, ?_, hkept ▸ htakes⟩
  rw [show run.2.set 2 [2] [8, 9] = _ from hafter, hkept]
  decide

end Table
end RespStore
