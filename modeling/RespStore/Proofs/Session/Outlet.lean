import Mathlib.Data.List.Basic
import RespStore.Session.Outlet

/-!
# RespStore.Proofs.Session.Outlet

How streams take bytes. Writing goes on until all the bytes are taken, so however little a stream
takes at a time, in the end it has taken them all or a beginning of them (`writeAll_cases`). A
stream without faults (`Outlet.Calm`) takes them all.

The server goes down in the middle of the bytes at one place at most, and the attempts to write say
which (`Outlet.stall`): it is so many bytes away, and nearer by what is taken (`Outlet.Took`).
-/

namespace RespStore

/-- The reason lies in the stream, or the server is going down. -/
def Ending.OfStream : Ending → Prop
  | .stream _ => True
  | .shutdown => True
  | _ => False

/-- The client's bytes are not to blame for what a stream does. -/
theorem Ending.OfStream.ne_malformed {cause : Ending} (h : cause.OfStream)
    (error : Wire.ParseError) : cause ≠ .malformed error := by
  rintro rfl
  exact h

namespace Attempt

variable {α : Type} {p : α → Prop}

/-- The attempt does not fail, and if it gives an answer, that is as it should be. -/
def Succeeds (p : α → Prop) : Attempt α → Prop
  | .ready answer => p answer
  | .pending => True
  | .fail _ => False
  | .shutdown => False

instance [DecidablePred p] : DecidablePred (Attempt.Succeeds p)
  | .ready answer => inferInstanceAs (Decidable (p answer))
  | .pending => inferInstanceAs (Decidable True)
  | .fail _ => inferInstanceAs (Decidable False)
  | .shutdown => inferInstanceAs (Decidable False)

end Attempt

namespace Outlet

/-- The stream never fails, and every write takes something. -/
structure Calm (o : Outlet) : Prop where
  writes : ∀ w ∈ o.writes, w.Succeeds (0 < ·)
  flushes : ∀ f ∈ o.flushes, f.Succeeds fun _ => True

instance (o : Outlet) : Decidable o.Calm :=
  decidable_of_iff ((∀ w ∈ o.writes, w.Succeeds (0 < ·)) ∧
    ∀ f ∈ o.flushes, f.Succeeds fun _ => True) ⟨fun h => ⟨h.1, h.2⟩, fun h => ⟨h.1, h.2⟩⟩

/-- How many bytes the stream takes before it stalls in a write and the server goes down, if that
is what comes of the attempts. -/
def stall : List (Attempt Nat) → Option Nat
  | [] => none
  | .pending :: rest => stall rest
  | .fail _ :: _ => none
  | .shutdown :: _ => some 0
  | .ready room :: rest => if room = 0 then none else (stall rest).map (room + ·)

/-- The outlet `o'` is `o` after its stream took `bytes`. The byte at which it is to stall is as
many bytes nearer. -/
structure Took (o : Outlet) (bytes : Bytes) (o' : Outlet) : Prop where
  calm : o.Calm → o'.Calm
  stall : stall o.writes = (stall o'.writes).map (bytes.length + ·)
  flushes : o'.flushes <:+ o.flushes
  unflushed : o'.unflushed = o.unflushed ++ bytes

variable {o o₁ o₂ : Outlet} {bytes more : Bytes} {rest : List (Attempt Nat)}

theorem Took.refl (o : Outlet) : o.Took [] o where
  calm := id
  stall := by simp
  flushes := List.suffix_refl _
  unflushed := (List.append_nil _).symm

theorem Took.trans (h₁ : o.Took bytes o₁) (h₂ : o₁.Took more o₂) : o.Took (bytes ++ more) o₂ where
  calm := fun h => h₂.calm (h₁.calm h)
  stall := by
    rw [h₁.stall, h₂.stall, Option.map_map]
    simp [Function.comp_def, Nat.add_assoc]
  flushes := h₂.flushes.trans h₁.flushes
  unflushed := by rw [h₂.unflushed, h₁.unflushed, List.append_assoc]

/-- A stream takes bytes where there is room for them. What is left of the room counts for the next
write. -/
theorem took_accept {room : Nat} (hwrites : o.writes = .ready room :: rest) (hroom : room ≠ 0)
    {writes : List (Attempt Nat)}
    (hcalm : (∀ w ∈ rest, w.Succeeds (0 < ·)) → ∀ w ∈ writes, w.Succeeds (0 < ·))
    (hstall : (stall rest).map (room + ·) = (stall writes).map (bytes.length + ·)) :
    o.Took bytes (o.accept bytes writes) where
  calm := by
    intro h
    have hall := h.writes
    rw [hwrites] at hall
    exact ⟨hcalm (List.forall_mem_cons.1 hall).2, h.flushes⟩
  stall := by
    rw [hwrites, Outlet.stall, if_neg hroom]
    exact hstall
  flushes := List.suffix_refl _
  unflushed := rfl

/-- The attempt at which a stream fails is none that succeeds. -/
theorem not_calm_of_write {w : Attempt Nat} (hwrites : o.writes = w :: rest)
    (hw : ¬w.Succeeds (0 < ·)) : ¬o.Calm := by
  intro h
  have hall := h.writes
  rw [hwrites] at hall
  exact hw (List.forall_mem_cons.1 hall).1

/-- **What is written is taken in the end, or a beginning of it** on a stream with faults. The
server goes down during a write only where the stream is to stall. -/
theorem writeAll_cases (o : Outlet) (bytes : Bytes) :
    (∃ o', o.writeAll bytes = (.ok (), o') ∧ o.Took bytes o') ∨
      ¬o.Calm ∧ ∃ cause o' taken, o.writeAll bytes = (.error cause, o') ∧ cause.OfStream ∧
        taken <+: bytes ∧ o.Took taken o' ∧ (cause = .shutdown → stall o'.writes = some 0) := by
  fun_induction Outlet.writeAll o bytes with
  | case1 o bytes hnil =>
    rw [List.isEmpty_iff.1 hnil]
    exact .inl ⟨o, rfl, .refl o⟩
  | case2 o bytes hne hwrites =>
    exact .inl ⟨_, rfl, fun h => ⟨by simp [accept], h.flushes⟩, by simp [accept, hwrites, stall],
      List.suffix_refl _, rfl⟩
  | case3 o bytes hne rest hwrites ih =>
    have hready : o.Took [] { o with writes := rest } := by
      refine ⟨fun h => ⟨?_, h.flushes⟩, ?_, List.suffix_refl _, (List.append_nil _).symm⟩
      · intro w hw
        exact h.writes w (hwrites ▸ List.mem_cons_of_mem _ hw)
      · rw [hwrites]
        exact (Took.refl { o with writes := rest }).stall
    rcases ih with ⟨o', hwrite, htook⟩ |
      ⟨hfault, cause, o', taken, hwrite, hcause, hpart, htook, hdown⟩
    · exact .inl ⟨o', hwrite, hready.trans htook⟩
    · exact .inr ⟨mt hready.calm hfault, cause, o', taken, hwrite, hcause, hpart,
        hready.trans htook, hdown⟩
  | case4 o bytes hne error rest hwrites =>
    exact .inr ⟨not_calm_of_write hwrites id, _, o, [], rfl, trivial, List.nil_prefix, .refl o,
      by rintro ⟨⟩⟩
  | case5 o bytes hne rest hwrites =>
    refine .inr ⟨not_calm_of_write hwrites id, _, o, [], rfl, trivial, List.nil_prefix, .refl o, ?_⟩
    intro _
    rw [hwrites, stall]
  | case6 o bytes hne rest hwrites =>
    exact .inr ⟨not_calm_of_write hwrites (Nat.lt_irrefl 0), _, o, [], rfl, trivial,
      List.nil_prefix, .refl o, by rintro ⟨⟩⟩
  | case7 o bytes hne room rest hwrites hroom hlt =>
    refine .inl ⟨_, rfl, took_accept hwrites hroom ?_ ?_⟩
    · intro h
      exact List.forall_mem_cons.2 ⟨Nat.sub_pos_of_lt hlt, h⟩
    · rw [stall, if_neg (Nat.sub_ne_zero_of_lt hlt), Option.map_map]
      congr 1
      funext n
      simp only [Function.comp_apply]
      omega
  | case8 o bytes hne room rest hwrites hroom hge ih =>
    have hfirst : o.Took (bytes.take room) (o.accept (bytes.take room) rest) := by
      refine took_accept hwrites hroom id ?_
      rw [List.length_take, Nat.min_eq_left (Nat.le_of_not_lt hge)]
    have hsplit := List.take_append_drop room bytes
    rcases ih with ⟨o', hwrite, htook⟩ |
      ⟨hfault, cause, o', taken, hwrite, hcause, hpart, htook, hdown⟩
    · exact .inl ⟨o', hwrite, hsplit ▸ hfirst.trans htook⟩
    · refine .inr ⟨mt hfirst.calm hfault, cause, o', bytes.take room ++ taken, hwrite, hcause, ?_,
        hfirst.trans htook, hdown⟩
      have hlong := (List.prefix_append_right_inj (bytes.take room)).2 hpart
      rwa [hsplit] at hlong

/-- The attempt at which a flush fails is none that succeeds. -/
theorem not_calm_of_flush {f : Attempt Unit} {rest : List (Attempt Unit)}
    (hflushes : o.flushes = f :: rest) (hf : ¬f.Succeeds fun _ => True) : ¬o.Calm := by
  intro h
  have hall := h.flushes
  rw [hflushes] at hall
  exact hf (List.forall_mem_cons.1 hall).1

/-- **A flush lets everything reach the client**, or it fails and nothing more does. -/
theorem flush_cases (o : Outlet) :
    (∃ o', o.flush = (.ok o.unflushed, o') ∧ (o.Calm → o'.Calm) ∧ o'.writes = o.writes ∧
        o'.flushes <:+ o.flushes ∧ o'.unflushed = []) ∨
      ¬o.Calm ∧ ∃ cause o', o.flush = (.error cause, o') ∧ cause.OfStream ∧ o.Took [] o' ∧
        (cause = .shutdown → .shutdown ∈ o.flushes) := by
  have hlater {o : Outlet} {f : Attempt Unit} {rest : List (Attempt Unit)}
      (hflushes : o.flushes = f :: rest) : rest <:+ o.flushes :=
    hflushes ▸ List.suffix_cons f rest
  have hcalm {o : Outlet} {f : Attempt Unit} {rest : List (Attempt Unit)}
      (hflushes : o.flushes = f :: rest) (h : o.Calm) :
      ∀ f ∈ rest, f.Succeeds fun _ => True :=
    fun f hf => h.flushes f ((hlater hflushes).subset hf)
  fun_induction Outlet.flush o with
  | case1 o hflushes =>
    exact .inl ⟨_, rfl, fun h => ⟨h.writes, h.flushes⟩, rfl, List.suffix_refl _, rfl⟩
  | case2 o rest hflushes ih =>
    have hready : o.Took [] { o with flushes := rest } :=
      ⟨fun h => ⟨h.writes, hcalm hflushes h⟩, (Took.refl o).stall, hlater hflushes,
        (List.append_nil _).symm⟩
    rcases ih with ⟨o', hflush, hkeep, hwrites, hrest, hempty⟩ |
      ⟨hfault, cause, o', hflush, hcause, htook, hdown⟩
    · exact .inl ⟨o', hflush, fun h => hkeep (hready.calm h), hwrites,
        hrest.trans (hlater hflushes), hempty⟩
    · exact .inr ⟨mt hready.calm hfault, cause, o', hflush, hcause, hready.trans htook,
        fun h => (hlater hflushes).subset (hdown h)⟩
  | case3 o error rest hflushes =>
    exact .inr ⟨not_calm_of_flush hflushes id, _, o, rfl, trivial, .refl o, by rintro ⟨⟩⟩
  | case4 o rest hflushes =>
    refine .inr ⟨not_calm_of_flush hflushes id, _, o, rfl, trivial, .refl o, fun _ => ?_⟩
    rw [hflushes]
    exact List.mem_cons_self ..
  | case5 o rest hflushes =>
    exact .inl ⟨_, rfl, fun h => ⟨h.writes, hcalm hflushes h⟩, rfl, hlater hflushes, rfl⟩

end Outlet

end RespStore
