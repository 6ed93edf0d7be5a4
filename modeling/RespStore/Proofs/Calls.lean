/-!
# RespStore.Proofs.Calls

Calls of something that has a state. Each call gives an answer and the next state, and a run makes
one call after another. What every single call keeps, a run keeps (`run_keeps`); and two that answer
every single call alike answer every run alike (`run_simulates`).

Where a call may go wrong, so may a run (`run?`). It does not if no call goes wrong from the states
that are seen on the way (`run?_eq`).
-/

namespace RespStore.Calls

variable {κ ρ σ τ : Type}

/-- Makes one call after another, by `perform`. -/
def run (perform : σ → κ → ρ × σ) (s : σ) : List κ → List ρ × σ
  | [] => ([], s)
  | call :: calls =>
    let (answer, s) := perform s call
    let (answers, s) := run perform s calls
    (answer :: answers, s)

theorem run_cons (perform : σ → κ → ρ × σ) (s : σ) (call : κ) (calls : List κ) :
    run perform s (call :: calls) =
      ((perform s call).1 :: (run perform (perform s call).2 calls).1,
        (run perform (perform s call).2 calls).2) := rfl

/-- What every call keeps, a run keeps. What is kept may depend on the number of calls so far. -/
theorem run_keeps {perform : σ → κ → ρ × σ} {P : Nat → σ → Prop}
    (hstep : ∀ n s call, P n s → P (n + 1) (perform s call).2) {n : Nat} {s : σ} (h : P n s)
    (calls : List κ) : P (n + calls.length) (run perform s calls).2 := by
  induction calls generalizing n s with
  | nil => exact h
  | cons call calls ih =>
    have := ih (hstep n s call h)
    rw [List.length_cons, Nat.add_comm calls.length 1, ← Nat.add_assoc]
    exact this

/-- **Two that answer each call alike answer every run alike.** -/
theorem run_simulates {perform : σ → κ → ρ × σ} {perform' : τ → κ → ρ × τ} {R : σ → τ → Prop}
    (hstep : ∀ s r call, R s r →
      (perform s call).1 = (perform' r call).1 ∧ R (perform s call).2 (perform' r call).2)
    {s : σ} {r : τ} (h : R s r) (calls : List κ) :
    (run perform s calls).1 = (run perform' r calls).1 ∧
      R (run perform s calls).2 (run perform' r calls).2 := by
  induction calls generalizing s r with
  | nil => exact ⟨rfl, h⟩
  | cons call calls ih =>
    obtain ⟨hanswer, hnext⟩ := hstep s r call h
    obtain ⟨hanswers, hfinal⟩ := ih hnext
    refine ⟨?_, hfinal⟩
    show _ :: _ = _ :: _
    rw [hanswer, hanswers]

/-- Makes one call after another, by a `perform` that may go wrong. -/
def run? (perform : σ → κ → Option (ρ × σ)) (s : σ) : List κ → Option (List ρ × σ)
  | [] => some ([], s)
  | call :: calls => do
    let (answer, s) ← perform s call
    let (answers, s) ← run? perform s calls
    some (answer :: answers, s)

/-- **If no call goes wrong, no run does.** One side may see of the states what `view` shows. The
calls may be of one kind only, and the states that they lead through of another. -/
theorem run?_eq_of {perform : σ → κ → ρ × σ} {perform' : τ → κ → Option (ρ × τ)} {view : σ → τ}
    {P : σ → Prop} {Q : κ → Prop}
    (hstep : ∀ s call, P s → Q call → P (perform s call).2 ∧
      perform' (view s) call = some ((perform s call).1, view (perform s call).2))
    {s : σ} (h : P s) {calls : List κ} (hcalls : ∀ call ∈ calls, Q call) :
    run? perform' (view s) calls =
      some ((run perform s calls).1, view (run perform s calls).2) := by
  induction calls generalizing s with
  | nil => rfl
  | cons call calls ih =>
    obtain ⟨hcall, hrest⟩ := List.forall_mem_cons.1 hcalls
    obtain ⟨hkept, hperform⟩ := hstep s call h hcall
    rw [run?, hperform]
    simp only [Option.bind_eq_bind, Option.bind_some]
    rw [ih hkept hrest, run_cons]
    rfl

/-- If no call ever goes wrong, no run does. -/
theorem run?_eq {perform : σ → κ → ρ × σ} {perform' : τ → κ → Option (ρ × τ)} {view : σ → τ}
    (hstep : ∀ s call,
      perform' (view s) call = some ((perform s call).1, view (perform s call).2))
    (s : σ) (calls : List κ) :
    run? perform' (view s) calls = some ((run perform s calls).1, view (run perform s calls).2) :=
  run?_eq_of (P := fun _ => True) (Q := fun _ => True)
    (fun s call _ _ => ⟨trivial, hstep s call⟩) trivial fun _ _ => trivial

end RespStore.Calls
