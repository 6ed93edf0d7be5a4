import RespStore.Command.Execute
import RespStore.Proofs.Store.Refinement

/-!
# RespStore.Proofs.Command.Interpretation

What requests mean, apart from how they are carried out. A `Query` is what a request asks for: the
value of a key, a new value for one, or a reply that depends on nothing. `Query.ofRequest` reads it
off the words of the request and `Reference.answer` answers it from one finite map, so that a row of
requests is interpreted without tables, shards or hashes.

Executing requests on a store is interpreting them on the map that the store stands for
(`executeAll_interprets`). A store can be touched by two kinds of requests only (`Reads`, `Writes`),
and what each of them may do to it is `Obeys`.
-/

namespace RespStore

/-! ### Words -/

namespace Bytes

/-- The bytes are the same, or the capital and the small form of one ASCII letter. -/
def SameLetter (b c : UInt8) : Prop :=
  b = c ∨ (65 ≤ b ∧ b ≤ 90 ∧ c = b + 32) ∨ (65 ≤ c ∧ c ≤ 90 ∧ b = c + 32)

/-- The word is the text, letter by letter. -/
def Spells (word : Bytes) (text : String) : Prop := List.Forall₂ SameLetter word (ascii text)

theorem lower_eq_lower_iff {b c : UInt8} : lower b = lower c ↔ SameLetter b c := by
  simp only [lower, SameLetter, Bool.and_eq_true, decide_eq_true_eq, ← UInt8.toNat_inj,
    UInt8.le_iff_toNat_le, UInt8.toNat_add]
  split <;> split <;> simp_all <;> omega

theorem sameWord_iff {a b : Bytes} : sameWord a b = true ↔ List.Forall₂ SameLetter a b := by
  rw [sameWord, beq_iff_eq, ← List.forall₂_eq_eq_eq, List.forall₂_map_left_iff,
    List.forall₂_map_right_iff]
  simp only [lower_eq_lower_iff]

/-- Two texts that differ in the case of letters alone are spelled by the same words. -/
theorem sameWord_ascii_iff (text text' : String)
    (h : sameWord (ascii text) (ascii text') = true) (word : Bytes) :
    sameWord word (ascii text) = true ↔ word.Spells text' := by
  rw [Spells, ← sameWord_iff, sameWord, sameWord, eq_of_beq h]

instance (word : Bytes) (text : String) : Decidable (word.Spells text) :=
  decidable_of_iff _ sameWord_iff

/-- Texts that one word spells differ in the case of letters alone. -/
theorem Spells.sameWord {word : Bytes} {text text' : String} (h : word.Spells text)
    (h' : word.Spells text') : sameWord (ascii text) (ascii text') = true := by
  have hlower := eq_of_beq (sameWord_iff.2 h)
  have hlower' := eq_of_beq (sameWord_iff.2 h')
  rw [Bytes.sameWord, ← hlower, hlower', beq_self_eq_true]

end Bytes

namespace Command

/-! ### What requests ask for -/

/-- The request asks for the value of a key. -/
def Reads (request : List Bytes) (key : Bytes) : Prop :=
  ∃ name : Bytes, name.Spells "GET" ∧ request = [name, key]

/-- The request asks to store a value. -/
def Writes (request : List Bytes) (key value : Bytes) : Prop :=
  ∃ name : Bytes, name.Spells "SET" ∧ request = [name, key, value]

/-- What a request asks for. -/
inductive Query
  /-- The value of a key. -/
  | lookup (key : Bytes)
  /-- A new value for a key. -/
  | store (key value : Bytes)
  /-- A reply that is the same whatever the keys hold. -/
  | reply (r : Reply)
  deriving DecidableEq

/-- The answer to a question about the configuration. -/
def configAnswer (subcommand parameter : Bytes) : Reply :=
  if ¬subcommand.Spells "GET" then .refusal (.subcommand (Utf8.lossy subcommand))
  else if parameter.Spells "save" then .canned .noSnapshots
  else if parameter.Spells "appendonly" then .canned .noLog
  else .refusal (.parameter (Utf8.lossy parameter))

/-- The answer to a request that has to do with no key, by its name and its other words. -/
def keylessAnswer (name : Bytes) (args : List Bytes) : Reply :=
  if name.Spells "PING" then
    match args with
    | [] => .canned .pong
    | _ => .refusal (.arity "ping")
  else if name.Spells "CONFIG" then
    match args with
    | [subcommand, parameter] => configAnswer subcommand parameter
    | _ => .refusal (.arity "config")
  else if name.Spells "COMMAND" then
    match args with
    | [] => .canned .commands
    | _ => .refusal (.arity "command")
  else .refusal (.unknown (Utf8.lossy name))

namespace Query

/-- What a request asks for. -/
def ofRequest : List Bytes → Query
  | [] => reply (.refusal .empty)
  | name :: args =>
    if name.Spells "GET" then
      match args with
      | [key] => lookup key
      | _ => reply (.refusal (.arity "get"))
    else if name.Spells "SET" then
      match args with
      | [key, value] => store key value
      | _ => reply (.refusal (.arity "set"))
    else reply (keylessAnswer name args)

theorem ofRequest_of_reads {request : List Bytes} {key : Bytes} (h : Reads request key) :
    ofRequest request = lookup key := by
  obtain ⟨name, hget, rfl⟩ := h
  exact if_pos hget

theorem ofRequest_of_writes {request : List Bytes} {key value : Bytes}
    (h : Writes request key value) : ofRequest request = store key value := by
  obtain ⟨name, hset, rfl⟩ := h
  have hget : ¬name.Spells "GET" := fun hget => absurd (hget.sameWord hset) (by decide)
  exact (if_neg hget).trans (if_pos hset)

/-- Only requests of two forms have to do with keys. -/
theorem reads_or_writes (request : List Bytes) :
    match ofRequest request with
    | .lookup key => Reads request key
    | .store key value => Writes request key value
    | .reply _ => True := by
  cases request with
  | nil => trivial
  | cons name args =>
    unfold ofRequest
    by_cases hget : name.Spells "GET"
    · simp only [if_pos hget]
      rcases args with _ | ⟨key, _ | ⟨more, args⟩⟩
      · trivial
      · exact ⟨name, hget, rfl⟩
      · trivial
    simp only [if_neg hget]
    by_cases hset : name.Spells "SET"
    · simp only [if_pos hset]
      rcases args with _ | ⟨key, _ | ⟨value, _ | ⟨more, args⟩⟩⟩
      · trivial
      · trivial
      · exact ⟨name, hset, rfl⟩
      · trivial
    simp only [if_neg hset]

end Query

/-! ### The program's reading of requests -/

/-- A word is compared with the names of the commands one after another. -/
theorem ofName?_eq (word : Bytes) :
    ofName? word =
      if word.Spells "GET" then some .get
      else if word.Spells "SET" then some .set
      else if word.Spells "PING" then some .ping
      else if word.Spells "CONFIG" then some .config
      else if word.Spells "COMMAND" then some .list
      else none := by
  -- the names are kept in small letters, but a word matches in any case
  have hsame (command : Command) (text : String)
      (h : Bytes.sameWord (Bytes.ascii command.name) (Bytes.ascii text) = true) :
      Bytes.sameWord word (Bytes.ascii command.name) = decide (word.Spells text) := by
    rw [Bool.eq_iff_iff, decide_eq_true_iff]
    exact Bytes.sameWord_ascii_iff _ _ h word
  simp only [ofName?, all, List.find?_cons, List.find?_nil,
    hsame .get "GET" (by decide), hsame .set "SET" (by decide), hsame .ping "PING" (by decide),
    hsame .config "CONFIG" (by decide), hsame .list "COMMAND" (by decide)]
  repeat' split
  all_goals simp_all

theorem configReply_eq (subcommand parameter : Bytes) :
    configReply subcommand parameter = configAnswer subcommand parameter := by
  have hget := Bytes.sameWord_ascii_iff "get" "GET" (by decide) subcommand
  have hsave := Bytes.sameWord_ascii_iff "save" "save" (by decide) parameter
  have hlog := Bytes.sameWord_ascii_iff "appendonly" "appendonly" (by decide) parameter
  simp only [configReply, configAnswer, Bool.not_eq_true', ← Bool.not_eq_true, hget, hsave, hlog]

/-- Requests that have to do with no key leave the store alone. -/
theorem execute_keyless {name : Bytes} (hget : ¬name.Spells "GET") (hset : ¬name.Spells "SET")
    (args : List Bytes) (s : Store) :
    execute (name :: args) s = (keylessAnswer name args, s) := by
  simp only [execute, ofName?_eq, keylessAnswer, if_neg hget, if_neg hset]
  by_cases hping : name.Spells "PING"
  · simp only [if_pos hping]
    rcases args with _ | ⟨more, args⟩ <;> rfl
  simp only [if_neg hping]
  by_cases hconfig : name.Spells "CONFIG"
  · simp only [if_pos hconfig]
    rcases args with _ | ⟨subcommand, _ | ⟨parameter, _ | ⟨more, args⟩⟩⟩
    · rfl
    · rfl
    · simp only [run, configReply_eq]
    · rfl
  simp only [if_neg hconfig]
  by_cases hlist : name.Spells "COMMAND"
  · simp only [if_pos hlist]
    rcases args with _ | ⟨more, args⟩ <;> rfl
  · simp only [if_neg hlist]

/-- The reply that tells the value of a key. -/
def found : Option Bytes → Reply
  | some value => .value value
  | none => .canned .missing

/-- The reply that tells whether a value was stored. -/
def stored : Except StoreError Stored → Reply
  | .ok _ => .canned .ok
  | .error error => .refusal (.store error)

/-- **Executing a request** is doing what it asks for. -/
theorem execute_eq (request : List Bytes) (s : Store) :
    execute request s =
      match Query.ofRequest request with
      | .lookup key => (found (s.peek? key), { s with lookups := s.lookups + 1 })
      | .store key value => (stored (s.set key value).1, (s.set key value).2)
      | .reply r => (r, s) := by
  cases request with
  | nil => rfl
  | cons name args =>
    simp only [Query.ofRequest]
    by_cases hget : name.Spells "GET"
    · simp only [execute, ofName?_eq, if_pos hget]
      rcases args with _ | ⟨key, _ | ⟨more, args⟩⟩
      · rfl
      · simp only [run, Store.get?]
        cases s.peek? key <;> rfl
      · rfl
    simp only [if_neg hget]
    by_cases hset : name.Spells "SET"
    · simp only [execute, ofName?_eq, if_neg hget, if_pos hset]
      rcases args with _ | ⟨key, _ | ⟨value, _ | ⟨more, args⟩⟩⟩
      · rfl
      · rfl
      · simp only [run]
        generalize s.set key value = result
        obtain ⟨_ | _, _⟩ := result <;> rfl
      · rfl
    · simp only [if_neg hset]
      exact execute_keyless hget hset args s

/-! ### Interpretation -/

end Command

namespace Store

/-- Answers a request from a finite map. -/
def Reference.answer (home : Bytes → Nat) (r : Reference) (request : List Bytes) :
    Reply × Reference :=
  match Command.Query.ofRequest request with
  | .lookup key => (Command.found (r.map.lookup key), { r with lookups := r.lookups + 1 })
  | .store key value =>
    let (result, r) := r.set home key value
    (Command.stored result, r)
  | .reply reply => (reply, r)

variable {shards : Nat} {home : Bytes → Nat} {s : Store} {r : Reference}

/-- **A request** is answered as the map answers it, and the store goes on standing for the map. -/
theorem Represents.execute (h : Represents Xxh3.hash shards home s r) (request : List Bytes) :
    (Command.execute request s).1 = (r.answer home request).1 ∧
      Represents Xxh3.hash shards home (Command.execute request s).2
        (r.answer home request).2 := by
  rw [Command.execute_eq, Reference.answer]
  cases Command.Query.ofRequest request with
  | lookup key => exact ⟨congrArg Command.found (h.peek?_eq key), h.count 1 0⟩
  | store key value =>
    obtain ⟨hresult, hset⟩ := h.set key value
    exact ⟨congrArg Command.stored hresult, hset⟩
  | reply reply => exact ⟨rfl, h⟩

/-- A write binds its key and no other, or the shard of the key is full. -/
theorem Represents.peek?_set (h : Represents Xxh3.hash shards home s r) (key value : Bytes) :
    (∃ result, (s.set key value).1 = .ok result ∧
        ∀ k, (s.set key value).2.peek? k = if k = key then some value else s.peek? k) ∨
      (s.set key value).1 = .error (.capacityExceeded Table.ceiling) ∧
        ∀ k, (s.set key value).2.peek? k = s.peek? k := by
  obtain ⟨hresult, hset⟩ := h.set key value
  have hpeek := hset.peek?_eq
  simp only [hresult, hpeek, h.peek?_eq, Reference.set]
  split
  · exact .inl ⟨_, rfl, FiniteMap.lookup_insert_eq_ite r.map key value⟩
  · split
    · exact .inl ⟨_, rfl, FiniteMap.lookup_insert_eq_ite r.map key value⟩
    · exact .inr ⟨rfl, fun k => rfl⟩

/-- A write counts as one, and not as a lookup. -/
theorem Represents.counts_set (h : Represents Xxh3.hash shards home s r) (key value : Bytes) :
    (s.set key value).2.lookups = s.lookups ∧ (s.set key value).2.writes = s.writes + 1 := by
  obtain ⟨-, hset⟩ := h.set key value
  rw [hset.lookups, hset.writes, h.lookups, h.writes, Reference.set]
  split
  · exact ⟨rfl, rfl⟩
  · split <;> exact ⟨rfl, rfl⟩

end Store

namespace Command

/-! ### Effects -/

/-- What a request may do to a store, and how it is answered if it has to do with a key. -/
structure Obeys (request : List Bytes) (s : Store) (reply : Reply) (s' : Store) : Prop where
  /-- A read is answered with the value that the key has. -/
  read : ∀ key, Reads request key → reply = found (s.peek? key)
  /-- A write binds its key and no other, or is refused for want of room. -/
  written : ∀ key value, Writes request key value →
    reply = .canned .ok ∧ (∀ k, s'.peek? k = if k = key then some value else s.peek? k) ∨
      reply = .refusal (.store (.capacityExceeded Table.ceiling)) ∧ ∀ k, s'.peek? k = s.peek? k
  /-- Other requests leave all keys as they were. -/
  kept : (¬∃ key value, Writes request key value) → ∀ k, s'.peek? k = s.peek? k
  /-- So do requests that are refused. -/
  refused : reply.isError = true → ∀ k, s'.peek? k = s.peek? k
  lookups : s'.lookups = s.lookups + 1 ∧ (∃ key, Reads request key) ∨
    s'.lookups = s.lookups ∧ ¬∃ key, Reads request key
  writes : s'.writes = s.writes + 1 ∧ (∃ key value, Writes request key value) ∨
    s'.writes = s.writes ∧ ¬∃ key value, Writes request key value

/-- **A request obeys**, whatever the store holds. -/
theorem obeys {shards : Nat} {home : Bytes → Nat} {s : Store} {r : Store.Reference}
    (h : Store.Represents Xxh3.hash shards home s r) (request : List Bytes) :
    Obeys request s (execute request s).1 (execute request s).2 := by
  have hquery := Query.reads_or_writes request
  have hread {key : Bytes} (hk : Reads request key) := Query.ofRequest_of_reads hk
  have hwrite {key value : Bytes} (hk : Writes request key value) := Query.ofRequest_of_writes hk
  rw [execute_eq]
  -- a request asks for one thing, so all fields but those about this hold for want of a case
  cases hof : Query.ofRequest request with
  | lookup key =>
    rw [hof] at hquery
    have hnot : ¬∃ key value, Writes request key value := by
      rintro ⟨key', value, hk⟩
      cases hof.symm.trans (hwrite hk)
    refine ⟨?_, fun key' value hk => absurd ⟨key', value, hk⟩ hnot, fun _ _ => rfl,
      fun _ _ => rfl, .inl ⟨rfl, key, hquery⟩, .inr ⟨rfl, hnot⟩⟩
    intro key' hk
    cases hof.symm.trans (hread hk)
    rfl
  | store key value =>
    rw [hof] at hquery
    have hnot : ¬∃ key, Reads request key := by
      rintro ⟨key', hk⟩
      cases hof.symm.trans (hread hk)
    obtain ⟨hlookups, hwrites⟩ := h.counts_set key value
    have hpeek := h.peek?_set key value
    dsimp only
    generalize s.set key value = result at hlookups hwrites hpeek ⊢
    obtain ⟨result, s'⟩ := result
    refine ⟨fun key' hk => absurd ⟨key', hk⟩ hnot, ?_, fun hk => absurd ⟨key, value, hquery⟩ hk,
      ?_, .inr ⟨hlookups, hnot⟩, .inl ⟨hwrites, key, value, hquery⟩⟩
    · intro key' value' hk
      cases hof.symm.trans (hwrite hk)
      rcases hpeek with ⟨stored, hok, hbound⟩ | ⟨herror, hsame⟩
      · cases hok
        exact .inl ⟨rfl, hbound⟩
      · cases herror
        exact .inr ⟨rfl, hsame⟩
    · intro herror
      rcases hpeek with ⟨stored, hok, -⟩ | ⟨-, hsame⟩
      · cases hok
        cases herror
      · exact hsame
  | reply r =>
    have hnoRead : ¬∃ key, Reads request key := by
      rintro ⟨key, hk⟩
      cases hof.symm.trans (hread hk)
    have hnoWrite : ¬∃ key value, Writes request key value := by
      rintro ⟨key, value, hk⟩
      cases hof.symm.trans (hwrite hk)
    exact ⟨fun key hk => absurd ⟨key, hk⟩ hnoRead,
      fun key value hk => absurd ⟨key, value, hk⟩ hnoWrite, fun _ _ => rfl, fun _ _ => rfl,
      .inr ⟨rfl, hnoRead⟩, .inr ⟨rfl, hnoWrite⟩⟩

/-! ### Runs -/

theorem executeAll_eq_run (requests : List (List Bytes)) (s : Store) :
    executeAll requests s = Calls.run (fun s request => execute request s) s requests := by
  induction requests generalizing s with
  | nil => rfl
  | cons request requests ih => simp only [executeAll, Calls.run, ih]

/-- **Executing requests is interpreting them on one finite map**, in every state that a store can
be in. The replies are those of the interpretation, and afterwards the store has the keys, the
values and the counts that it gives. And whatever a request is, its effect is as `Obeys` says. -/
theorem executeAll_interprets {α : Type} {count : Nat} (h : count ≤ 2 ^ 63)
    (calls : List (Store.Call α)) (requests : List (List Bytes)) :
    let start := Store.create count
    let home := fun key => start.shardFor key
    let s := (Calls.run (Store.perform Xxh3.hash) start calls).2
    let r := (Calls.run (Store.Reference.perform start.shardCount home) .empty calls).2
    let actual := executeAll requests s
    let expected := Calls.run (Store.Reference.answer home) r requests
    actual.1 = expected.1 ∧
      (∀ key, actual.2.peek? key = expected.2.map.lookup key) ∧
      actual.2.keys = expected.2.map.keys.card ∧
      actual.2.lookups = expected.2.lookups ∧ actual.2.writes = expected.2.writes ∧
      ∀ request, Obeys request s (execute request s).1 (execute request s).2 := by
  intro start home s r actual expected
  obtain ⟨-, hs⟩ := Calls.run_simulates
    (R := Store.Represents Xxh3.hash start.shardCount home) (fun _ _ call hr => hr.perform call)
    (Store.Represents.create_represents Xxh3.hash h) calls
  have hstep (s : Store) (r : Store.Reference) (request : List Bytes)
      (hr : Store.Represents Xxh3.hash start.shardCount home s r) :
      (execute request s).1 = (r.answer home request).1 ∧
        Store.Represents Xxh3.hash start.shardCount home (execute request s).2
          (r.answer home request).2 := hr.execute request
  obtain ⟨hreplies, hfinal⟩ := Calls.run_simulates hstep hs requests
  have hactual : actual = Calls.run (fun s request => execute request s) s requests :=
    executeAll_eq_run requests s
  rw [hactual]
  exact ⟨hreplies, hfinal.peek?_eq, hfinal.keys, hfinal.lookups, hfinal.writes, obeys hs⟩

/-- A key that is read in one case of letters and written in another, and requests that are
refused. -/
theorem executeAll_mixed_cases :
    let calls : List (Store.Call Unit) := [.set [1] [7]]
    let s := (Calls.run (Store.perform Xxh3.hash) (Store.create 3) calls).2
    3 ≤ 2 ^ 63 ∧
      (executeAll [[Bytes.ascii "gEt", [1]], [Bytes.ascii "SET", [1]], [],
          [Bytes.ascii "set", [1], []], [Bytes.ascii "GET", [1]], [Bytes.ascii "GETX", [1]],
          [Bytes.ascii "pInG"]] s).1 =
        [.value [7], .refusal (.arity "set"), .refusal .empty, .canned .ok, .value [],
          .refusal (.unknown "GETX"), .canned .pong] :=
  ⟨by decide, (executeAll_interprets (by decide) _ _).1.trans (by decide +kernel)⟩

end Command
end RespStore
