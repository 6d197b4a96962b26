import BoxQP.Proofs.Drivers

/-!
# What a minimiser knows of its past

A caller may start a minimiser again at any time, step it on, ask whether it is done or
ask for its report, and may change the iterate and the problem data between any two
calls. The state is compared with the past since the last start: the data and the iterate
of the start, and those that each step came to. One call keeps the comparison, and a
series of calls does by induction. No law of the arithmetic is used.
-/

namespace BoxQP

open UpperBound

variable {α : Type} {n : Nat}

/-- The numbers of the steps up to the `k`-th after which the residual is due. -/
def Config.dueUpTo (c : Config α) (k : Nat) : Set Nat :=
  {j | 1 ≤ j ∧ j ≤ k ∧ c.checkEvery.number ∣ j}

namespace Config

variable [Arith α] (c : Config α) {k : Nat}

theorem isGreatest_dueUpTo_iff (due : (c.stopRule n).due (k + 1) = true) {m : Nat} :
    IsGreatest (c.dueUpTo (k + 1)) m ↔ m = k + 1 := by
  obtain ⟨first, divides⟩ := ((c.stopRule n).due_iff (k + 1)).mp due
  have last : IsGreatest (c.dueUpTo (k + 1)) (k + 1) :=
    ⟨⟨first, le_rfl, divides⟩, fun _ earlier => earlier.2.1⟩
  constructor
  · intro greatest
    exact greatest.unique last
  · rintro rfl
    exact last

theorem dueUpTo_of_not_due (quiet : ¬ (c.stopRule n).due (k + 1) = true) :
    c.dueUpTo (k + 1) = c.dueUpTo k := by
  ext j
  constructor
  · rintro ⟨first, within, divides⟩
    refine ⟨first, ?_, divides⟩
    by_cases last : j = k + 1
    · exact absurd (((c.stopRule n).due_iff (k + 1)).mpr ⟨by omega, last ▸ divides⟩) quiet
    · omega
  · rintro ⟨first, within, divides⟩
    exact ⟨first, by omega, divides⟩

end Config

namespace Minimiser

/-- A call, with the data and the iterate that the caller has at hand. -/
inductive Call (α : Type) (n : Nat) where
  | init (q : Quadratic α n) (y : Vec α n)
  | step (q : Quadratic α n) (y : Vec α n)
  | terminate
  | report

/-- The data and the iterate of the last start, and those that each step since came to, in
order. -/
structure Past (α : Type) (n : Nat) where
  start : Quadratic α n × Vec α n
  steps : List (Quadratic α n × Vec α n)

namespace Past

/-- Where the last start or step came to. -/
def latest (past : Past α n) : Quadratic α n × Vec α n := past.steps.getLast?.getD past.start

/-- A step updates the iterate that it is given, by the split of the data of the start. -/
def record [Arith α] (c : Config α) (bound : Option (UpperBound α n)) (past : Past α n) :
    Call α n → Past α n
  | .init q y => { start := (q, y), steps := [] }
  | .step q y =>
    let s := Split.build c.policy past.start.1 c.epsilon
    { past with steps := past.steps ++ [(q, s.update c.schedule c.epsilon bound y)] }
  | .terminate => past
  | .report => past

end Past

variable [Arith α] {c : Config α} {bound : Option (UpperBound α n)} {past : Past α n}
  {s : State α n}

/-- The state after a call. -/
def State.after (c : Config α) (bound : Option (UpperBound α n)) (s : State α n) :
    Call α n → State α n
  | .init q y => Minimiser.init c q y
  | .step q y => (Minimiser.step c bound q y s).2
  | .terminate => s
  | .report => s

/-- The state is the one that belongs to the past. No residual stands for an infinite one. -/
structure State.Recalls (c : Config α) (past : Past α n) (s : State α n) : Prop where
  steps_eq : s.steps = past.steps.length
  split_eq : s.split = Split.build c.policy past.start.1 c.epsilon
  residual_seen : ∀ m, IsGreatest (c.dueUpTo past.steps.length) m →
    ∃ e, past.steps[m - 1]? = some e ∧ s.residual = some (e.1.residual e.2)
  residual_unseen : c.dueUpTo past.steps.length = ∅ → s.residual = none
  converged_iff : s.converged = true ↔ 1 ≤ s.steps ∧ c.checkEvery.number ∣ s.steps ∧
    ∃ r, s.residual = some r ∧ Arith.lt r (c.tolerance n) = true
  value_eq : s.value = past.latest.1.value past.latest.2

theorem recalls_init (c : Config α) (q : Quadratic α n) (y : Vec α n) :
    (init c q y).Recalls c { start := (q, y), steps := [] } where
  steps_eq := rfl
  split_eq := rfl
  residual_seen := by
    rintro m ⟨⟨first, within, -⟩, -⟩
    simp only [List.length_nil] at within
    omega
  residual_unseen := fun _ => rfl
  converged_iff := by simp [init]
  value_eq := rfl

/-- A step at which the residual is due keeps it and judges by it. -/
theorem step_of_due (bound : Option (UpperBound α n)) (q : Quadratic α n) (y : Vec α n)
    (due : (c.stopRule n).due (s.steps + 1) = true) :
    let e := step c bound q y s
    e.2.residual = some (q.residual e.1) ∧
      e.2.converged = Arith.lt (q.residual e.1) (c.tolerance n) := by
  simp only [step, due, if_true, true_and]
  rfl

/-- Any other step leaves the residual and has not converged. -/
theorem step_of_not_due (bound : Option (UpperBound α n)) (q : Quadratic α n) (y : Vec α n)
    (quiet : ¬ (c.stopRule n).due (s.steps + 1) = true) :
    let e := step c bound q y s
    e.2.residual = s.residual ∧ e.2.converged = false := by
  simp [step, quiet]

theorem step_fst (q : Quadratic α n) (y : Vec α n) :
    (step c bound q y s).1 = s.split.update c.schedule c.epsilon bound y := by
  simp only [step]
  split <;> rfl

theorem step_split (q : Quadratic α n) (y : Vec α n) :
    (step c bound q y s).2.split = s.split := by
  simp only [step]
  split <;> rfl

theorem step_value (q : Quadratic α n) (y : Vec α n) :
    (step c bound q y s).2.value = q.value (step c bound q y s).1 := by
  simp only [step]
  split <;> rfl

/-- After any step, convergence is what the last look says, if it was made at this step. -/
theorem step_converged_iff (q : Quadratic α n) (y : Vec α n) :
    let e := (step c bound q y s).2
    e.converged = true ↔ 1 ≤ e.steps ∧ c.checkEvery.number ∣ e.steps ∧
      ∃ r, e.residual = some r ∧ Arith.lt r (c.tolerance n) = true := by
  intro e
  have counted : e.steps = s.steps + 1 := step_steps (y, s)
  have due_iff := (c.stopRule n).due_iff (s.steps + 1)
  rw [counted]
  by_cases due : (c.stopRule n).due (s.steps + 1) = true
  · obtain ⟨kept, judged⟩ := step_of_due bound q y due
    obtain ⟨first, divides⟩ := due_iff.mp due
    rw [judged]
    constructor
    · intro small
      exact ⟨first, divides, _, kept, small⟩
    · rintro ⟨-, -, r, same, small⟩
      rwa [← Option.some.inj (kept.symm.trans same)] at small
  · obtain ⟨-, judged⟩ := step_of_not_due bound q y due
    rw [judged]
    constructor
    · intro ended
      cases ended
    · rintro ⟨first, divides, -⟩
      exact absurd (due_iff.mpr ⟨first, divides⟩) due

/-- A step keeps the state in agreement with the past. -/
theorem State.Recalls.step (recalls : s.Recalls c past) (q : Quadratic α n) (y : Vec α n) :
    (Minimiser.step c bound q y s).2.Recalls c (past.record c bound (.step q y)) := by
  have place : (Minimiser.step c bound q y s).1
      = (Split.build c.policy past.start.1 c.epsilon).update c.schedule c.epsilon bound y := by
    rw [step_fst, recalls.split_eq]
  have steps_eq : (past.record c bound (.step q y)).steps
      = past.steps ++ [(q, (Minimiser.step c bound q y s).1)] := by
    rw [place]
    rfl
  have length_eq : (past.record c bound (.step q y)).steps.length = s.steps + 1 := by
    rw [steps_eq, recalls.steps_eq, List.length_append, List.length_singleton]
  refine ⟨?_, ?_, ?_, ?_, step_converged_iff q y, ?_⟩
  · rw [length_eq]
    exact step_steps (y, s)
  · rw [step_split, recalls.split_eq]
    rfl
  · intro m greatest
    rw [length_eq] at greatest
    rw [steps_eq]
    by_cases due : (c.stopRule n).due (s.steps + 1) = true
    · rw [(c.isGreatest_dueUpTo_iff due).mp greatest, recalls.steps_eq, Nat.add_sub_cancel]
      exact ⟨_, List.getElem?_concat_length, (step_of_due _ q y due).1⟩
    · rw [c.dueUpTo_of_not_due due, recalls.steps_eq] at greatest
      obtain ⟨e, there, seen⟩ := recalls.residual_seen m greatest
      have inside : m - 1 < past.steps.length := (List.getElem?_eq_some_iff.mp there).1
      refine ⟨e, ?_, (step_of_not_due _ q y due).1.trans seen⟩
      rwa [List.getElem?_append_left inside]
  · intro unseen
    rw [length_eq] at unseen
    by_cases due : (c.stopRule n).due (s.steps + 1) = true
    · have here : s.steps + 1 ∈ c.dueUpTo (s.steps + 1) :=
        ((c.isGreatest_dueUpTo_iff due).mpr rfl).1
      exact absurd (unseen ▸ here) (Set.notMem_empty _)
    · rw [c.dueUpTo_of_not_due due, recalls.steps_eq] at unseen
      exact (step_of_not_due _ q y due).1.trans (recalls.residual_unseen unseen)
  · rw [step_value, Past.latest, steps_eq, List.getLast?_concat, Option.getD_some]

/-- Any call does. -/
theorem State.Recalls.after (recalls : s.Recalls c past) (call : Call α n) :
    (s.after c bound call).Recalls c (past.record c bound call) := by
  cases call with
  | init q y => exact recalls_init c q y
  | step q y => exact recalls.step q y
  | terminate => exact recalls
  | report => exact recalls

/-- And so does any series of calls. -/
theorem State.Recalls.foldl (recalls : s.Recalls c past) (calls : List (Call α n)) :
    (calls.foldl (State.after c bound) s).Recalls c (calls.foldl (Past.record c bound) past) := by
  induction calls generalizing s past with
  | nil => exact recalls
  | cons call calls ih => exact ih (recalls.after call)

end Minimiser

section Readings

variable {bound : Option (Tensor α)}

theorem Split.operands?_ok {s : Split α n} {o : Schedule}
    {fitted : Split α n × Option (UpperBound α n)} (taken : s.operands? o n bound = .ok fitted) :
    fitted = (s, reading n bound) := by
  have same : s.resize? n = .ok s := dif_pos rfl
  cases o with
  | synchronous =>
    rw [operands?, same] at taken
    change (Schedule.synchronous.optionalBound? n bound >>= _) = _ at taken
    obtain ⟨_, here, taken⟩ := exists_of_bind_eq_ok taken
    cases taken
    rw [Schedule.optionalBound?_ok here]
  | gaussSeidel =>
    rw [operands?] at taken
    obtain ⟨_, here, taken⟩ := exists_of_bind_eq_ok taken
    split at taken
    · cases taken
    · rw [same] at taken
      cases taken
      rw [Schedule.optionalBound?_ok here]

end Readings

section Sessions

variable {c : Config α} {q : Quadratic α n} {bound : Option (Tensor α)}

theorem Session.operands?_ok {s : Split α n} {y : Vec α n} {fitted : (k : Nat) × Operands α k}
    (taken : (Session.stating c q bound y).operands? s = .ok fitted) :
    fitted = ⟨n, { y, split := s, bound := reading n bound, objective := q }⟩ := by
  simp only [operands?, stating, Option.bind_some, Tensor.vector?_ofVec,
    Quadratic.ofTensors?_eq] at taken
  obtain ⟨_, here, taken⟩ := exists_of_bind_eq_ok taken
  obtain rfl := Split.operands?_ok here
  change (if _ : n = n then _ else _) = _ at taken
  rw [dif_pos rfl] at taken
  change (if (!c.checkEvery.comparable) = true then Except.error Fault.countTooLarge
    else if n = 0 then .error .emptyMaximum
    else if (!c.threshold.all Threshold.comparable) = true then .error .wholeTooLarge
    else .ok ⟨n, { y, split := s, bound := reading n bound, objective := q }⟩) = .ok fitted at taken
  split at taken
  · cases taken
  · split at taken
    · cases taken
    · split at taken <;> cases taken
      rfl

variable [Arith α]

/-- A step that answers is the step of the minimiser. -/
theorem LiveSession.step?_ok {e : Vec α n × Minimiser.State α n} {live : LiveSession α}
    (answered : (LiveSession.stating c q bound e).step? = .ok live) :
    live = .stating c q bound (Minimiser.step c (reading n bound) q e.1 e.2) := by
  obtain ⟨fitted, taken, answered⟩ := exists_of_bind_eq_ok answered
  obtain rfl := Session.operands?_ok taken
  cases answered
  rfl

/-- The session after a series of calls, none of which fails. -/
def LiveSession.after? (a : LiveSession α) (calls : List (SessionCall α)) :
    Except Fault (LiveSession α) :=
  calls.foldlM (fun a call => (a.call? call).map Prod.fst) a

/-- A call by way of a session: the iterate and the data are handed in before. -/
def Minimiser.Call.onSession : Call α n → List (SessionCall α)
  | .init q y => [.setIterate (.array (Tensor.ofVec y)),
      .setData (.array (Tensor.ofMat q.Q)) (.array (Tensor.ofVec q.h)), .start]
  | .step q y => [.setIterate (.array (Tensor.ofVec y)),
      .setData (.array (Tensor.ofMat q.Q)) (.array (Tensor.ofVec q.h)), .step 1]
  | .terminate => [.terminate]
  | .report => [.report]

theorem LiveSession.after?_handed (e : Vec α n × Minimiser.State α n) (q' : Quadratic α n)
    (y : Vec α n) (rest : List (SessionCall α)) :
    (LiveSession.stating c q bound e).after? (.setIterate (.array (Tensor.ofVec y)) ::
        .setData (.array (Tensor.ofMat q'.Q)) (.array (Tensor.ofVec q'.h)) :: rest)
      = (LiveSession.stating c q' bound (y, e.2)).after? rest := rfl

theorem LiveSession.after?_append (a : LiveSession α) (calls more : List (SessionCall α)) :
    a.after? (calls ++ more) = a.after? calls >>= fun b => b.after? more :=
  List.foldlM_append

theorem LiveSession.after?_singleton (a : LiveSession α) (call : SessionCall α) :
    a.after? [call] = (a.call? call).map Prod.fst := by
  rw [after?, List.foldlM_cons]
  cases a.call? call <;> rfl

theorem LiveSession.after?_start (a : LiveSession α) : a.after? [.start] = a.toSession.start? := by
  rw [after?_singleton, call?]
  cases a.toSession.start? <;> rfl

theorem LiveSession.after?_step (a : LiveSession α) : a.after? [.step 1] = a.step? := by
  rw [after?_singleton, call?, steps?]
  cases a.step? <;> rfl

/-- Asking whether a minimiser is done changes nothing. -/
theorem LiveSession.call?_terminate_ok {a b : LiveSession α} {answer : SessionAnswer α}
    (answered : a.call? .terminate = .ok (b, answer)) :
    b = a ∧ answer = .verdict (Minimiser.terminate a.config a.state).1
      (Minimiser.terminate a.config a.state).2 := by
  rw [call?] at answered
  obtain ⟨verdict, given, answered⟩ := exists_of_bind_eq_ok answered
  unfold terminate? at given
  split at given
  · cases given
    cases answered
    exact ⟨rfl, rfl⟩
  · cases given

open Minimiser in
/-- A call by way of a session leaves the state that it leaves by itself. -/
theorem LiveSession.after?_onSession_ok {e : Vec α n × State α n} {live : LiveSession α}
    (call : Call α n)
    (answered : (LiveSession.stating c q bound e).after? call.onSession = .ok live) :
    ∃ q' y', live = .stating c q' bound (y', e.2.after c (reading n bound) call) := by
  cases call with
  | init q' y =>
    rw [Call.onSession, after?_handed, after?_start] at answered
    have started : (Session.stating c q' bound y).start?
        = .ok (.stating c q' bound (y, Minimiser.init c q' y)) := Session.start?_eq y
    cases started.symm.trans answered
    exact ⟨q', y, rfl⟩
  | step q' y =>
    rw [Call.onSession, after?_handed, after?_step] at answered
    obtain rfl := step?_ok answered
    exact ⟨q', _, rfl⟩
  | terminate =>
    rw [Call.onSession, after?_singleton] at answered
    obtain ⟨⟨b, _⟩, given, rfl⟩ := exists_of_map_eq_ok answered
    obtain ⟨rfl, -⟩ := call?_terminate_ok given
    exact ⟨q, e.1, rfl⟩
  | report =>
    rw [Call.onSession, after?_singleton] at answered
    cases answered
    exact ⟨q, e.1, rfl⟩

open Minimiser in
/-- Where sizes fit and what is compared with is within range, every call answers. -/
theorem LiveSession.exists_after?_onSession (positive : 1 ≤ n) (fits : ∀ t ∈ bound, Fits n t)
    (steppable : c.Steppable) (budgeted : c.maxSteps.comparable = true)
    (e : Vec α n × State α n) (call : Call α n) :
    ∃ live, (LiveSession.stating c q bound e).after? call.onSession = .ok live := by
  cases call with
  | init q' y =>
    rw [Call.onSession, after?_handed, after?_start]
    exact ⟨_, Session.start?_eq y⟩
  | step q' y =>
    rw [Call.onSession, after?_handed, after?_step]
    exact ⟨_, step?_eq positive fits steppable _⟩
  | terminate =>
    have asked : (LiveSession.stating c q bound e).terminate? = .ok (terminate c e.2) :=
      if_pos budgeted
    rw [Call.onSession, after?_singleton, call?, asked]
    exact ⟨_, rfl⟩
  | report => exact ⟨LiveSession.stating c q bound e, rfl⟩

open Minimiser in
theorem LiveSession.after?_flatMap_ok {e : Vec α n × State α n} {live : LiveSession α}
    (calls : List (Call α n))
    (answered :
      (LiveSession.stating c q bound e).after? (calls.flatMap Call.onSession) = .ok live) :
    ∃ q' y', live
      = .stating c q' bound (y', calls.foldl (State.after c (reading n bound)) e.2) := by
  induction calls generalizing q e with
  | nil =>
    cases answered
    exact ⟨q, e.1, rfl⟩
  | cons call calls ih =>
    rw [List.flatMap_cons, after?_append] at answered
    obtain ⟨b, first, others⟩ := exists_of_bind_eq_ok answered
    obtain ⟨q', y', rfl⟩ := after?_onSession_ok call first
    exact ih others

open Minimiser in
theorem LiveSession.exists_after?_flatMap (positive : 1 ≤ n) (fits : ∀ t ∈ bound, Fits n t)
    (steppable : c.Steppable) (budgeted : c.maxSteps.comparable = true)
    (e : Vec α n × State α n) (calls : List (Call α n)) :
    ∃ live, (LiveSession.stating c q bound e).after? (calls.flatMap Call.onSession) = .ok live := by
  induction calls generalizing q e with
  | nil => exact ⟨_, rfl⟩
  | cons call calls ih =>
    obtain ⟨b, first⟩ :=
      exists_after?_onSession (q := q) positive fits steppable budgeted e call
    obtain ⟨q', y', rfl⟩ := after?_onSession_ok call first
    obtain ⟨live, others⟩ := ih (q := q') (y', e.2.after c (reading n bound) call)
    refine ⟨live, ?_⟩
    rw [List.flatMap_cons, after?_append, first]
    exact others

end Sessions

namespace Minimiser

variable [Arith α]

/-- However a minimiser is called after its first start, and whatever iterates and data it
is handed in between, its state is the one that belongs to the past since the last start. It
is done when it has converged or its budget is spent, and says which; to ask this, or to
report, changes nothing. A session on arrays that answers all of the calls has this state,
and it answers them where the sizes fit and the counts and the threshold are within the range
of the step counter. -/
theorem state_recalls_past (c : Config α) (bound : Option (Tensor α)) (q : Quadratic α n)
    (y : Vec α n) (calls : List (Call α n)) :
    let past := calls.foldl (Past.record c (reading n bound)) { start := (q, y), steps := [] }
    let s := calls.foldl (State.after c (reading n bound)) (init c q y)
    let session := (Session.stating c q bound y).start? >>= fun live =>
      live.after? (calls.flatMap Call.onSession)
    s.Recalls c past ∧
    ((terminate c s).1 = true ↔ s.converged = true ∨ c.maxSteps.reached s.steps = true) ∧
    (∀ C, c.maxSteps = .whole C → (c.maxSteps.reached s.steps = true ↔ C ≤ s.steps)) ∧
    ((terminate c s).2 = .maxStepsReached ↔ (terminate c s).1 = true ∧ s.converged = false) ∧
    (∀ live, session = .ok live →
      (∃ q' y', live = LiveSession.stating c q' bound (y', s)) ∧
      (∀ b answer, live.call? .terminate = .ok (b, answer) →
        b = live ∧ answer = .verdict (terminate c s).1 (terminate c s).2) ∧
      live.call? .report = .ok (live, .report live)) ∧
    (1 ≤ n → (∀ t ∈ bound, Fits n t) → c.Steppable → c.maxSteps.comparable = true →
      ∃ live, session = .ok live) := by
  intro past s session
  refine ⟨(recalls_init c q y).foldl calls, terminate_fst_iff c s, ?_, terminate_snd_iff c s,
    ?_, ?_⟩
  · intro C whole
    simp [whole, Count.reached_whole]
  · intro live answered
    obtain ⟨first, started, others⟩ := exists_of_bind_eq_ok answered
    cases (Session.start?_eq y).symm.trans started
    obtain ⟨q', y', rfl⟩ := LiveSession.after?_flatMap_ok calls others
    exact ⟨⟨q', y', rfl⟩, fun b answer given => LiveSession.call?_terminate_ok given, rfl⟩
  · intro positive fits steppable budgeted
    have answered := LiveSession.exists_after?_flatMap (q := q) positive fits steppable budgeted
      (y, init c q y) calls
    obtain ⟨live, others⟩ := answered
    refine ⟨live, ?_⟩
    simp only [session, Session.start?_eq]
    exact others

end Minimiser

end BoxQP
