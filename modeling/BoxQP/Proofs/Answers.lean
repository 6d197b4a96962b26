import BoxQP.Call
import BoxQP.Proofs.Readings

/-!
# Calls that answer

A call answers only where each reading on its way does. The lemmas below take such a call
apart: the configuration that its run goes by, the problem that is solved, and for a
program over inequalities the point that is recovered from the same program as its dual
was made of. No law of the arithmetic is used.
-/

namespace BoxQP

theorem exists_of_bind_eq_ok {ε β γ : Type} {r : Except ε β} {f : β → Except ε γ} {c : γ}
    (answered : r >>= f = .ok c) : ∃ b, r = .ok b ∧ f b = .ok c := by
  cases r with
  | error _ => cases answered
  | ok b => exact ⟨b, rfl, answered⟩

theorem exists_of_map_eq_ok {ε β γ : Type} {r : Except ε β} {f : β → γ} {c : γ}
    (answered : r.map f = .ok c) : ∃ b, r = .ok b ∧ f b = c := by
  cases r with
  | error _ => cases answered
  | ok b => exact ⟨b, rfl, Except.ok.inj answered⟩

theorem eq_ok_of_mapError {ε ε' β : Type} {f : ε → ε'} {r : Except ε β} {b : β}
    (answered : r.mapError f = .ok b) : r = .ok b := by
  cases r with
  | error _ => cases answered
  | ok _ =>
    cases answered
    rfl

variable {α : Type} [Arith α]

section Problems

variable {n : Nat} {a : Statement α} {c c' : Config α}

theorem Statement.problem?_ok {p : Problem α n} (read : a.problem? = .ok ⟨n, p⟩) :
    a.objective? = .ok ⟨n, p.objective⟩ ∧ start? p.objective a.start = .ok p.start ∧
      bound? n a.bound = .ok p.bound := by
  obtain ⟨⟨k, objective⟩, here, read⟩ := exists_of_bind_eq_ok read
  obtain ⟨start, started, read⟩ := exists_of_bind_eq_ok read
  obtain ⟨bound, bounded, read⟩ := exists_of_bind_eq_ok read
  cases read
  exact ⟨here, started, bounded⟩

theorem Statement.solve?_ok {tracked : Bool} {answer : (n : Nat) × Solution α n}
    (answered : a.solve? c tracked = .ok answer) :
    ∃ n p, a.problem? = .ok ⟨n, p⟩ ∧ answer = ⟨n, p.solve c tracked⟩ := by
  obtain ⟨⟨n, p⟩, read, answered⟩ := exists_of_bind_eq_ok answered
  obtain ⟨s, ran, rfl⟩ := exists_of_map_eq_ok answered
  exact ⟨n, p, read, congrArg (Sigma.mk n) (Problem.answer?_eq_ok_iff.mp ran).2.1⟩

variable [TextForm α]

/-- An own budget changes no other field. -/
theorem Config.replace?_maxSteps (positive : Arith.lt 0 c.epsilon = true) (v : Setting α) :
    c.replace? [("max_steps", v)] = (readBudget v).map fun k => { c with maxSteps := k } := by
  have named : [("max_steps", v)].find? (fun s => !names.contains s.1) = none := rfl
  have kept : checkEpsilon c.epsilon = .ok c.epsilon := if_pos positive
  rw [replace?, named]
  change (checkEpsilon c.epsilon >>= _) = _
  rw [kept]
  change (readBudget v >>= _) = _
  cases readBudget v with
  | error _ => rfl
  | ok _ => rfl

theorem SolveOptions.solve?_ok {o : SolveOptions α} {Q h : Literal α}
    {answer : (n : Nat) × Solution α n} (positive : Arith.lt 0 c.epsilon = true)
    (answered : o.solve? c Q h = .ok (c', answer)) :
    (∃ k, c' = { c with maxSteps := k }) ∧
      ({ Q, h, start := o.start, bound := o.bound } : Statement α).solve? c' o.tracked
        = .ok answer := by
  let a : Statement α := { Q, h, start := o.start, bound := o.bound }
  have ran {d : Config α}
      (answered : ((CallFault.ofInput (a.solve? d o.tracked) : Except (CallFault α) _)
        >>= fun s => .ok (d, s)) = .ok (c', answer)) :
      d = c' ∧ a.solve? c' o.tracked = .ok answer := by
    obtain ⟨s, solved, answered⟩ := exists_of_bind_eq_ok answered
    cases answered
    exact ⟨rfl, eq_ok_of_mapError solved⟩
  unfold solve? at answered
  split at answered
  · cases answered
  · dsimp only at answered
    split at answered
    · obtain ⟨rfl, solved⟩ := ran answered
      exact ⟨⟨_, rfl⟩, solved⟩
    · obtain ⟨d, replaced, answered⟩ := exists_of_bind_eq_ok answered
      obtain ⟨rfl, solved⟩ := ran answered
      have read := eq_ok_of_mapError replaced
      rw [Config.replace?_maxSteps positive] at read
      obtain ⟨k, -, rfl⟩ := exists_of_map_eq_ok read
      exact ⟨⟨k, rfl⟩, solved⟩

end Problems

namespace Inequality

variable {n m : Nat} {p : Inequality α n m} {r : Vec α m}

omit [Arith α] in
/-- A program that fits one vector fits every other of the same length. -/
theorem ofTensors?_ofVec {H f A : Option (Tensor α)} {t : Tensor α}
    (read : ofTensors? H f A t = .ok ⟨n, m, p, r⟩) (lam : Vec α m) :
    ofTensors? H f A (Tensor.ofVec lam) = .ok ⟨n, m, p, lam⟩ := by
  unfold ofTensors? at read ⊢
  split at read
  · split at read
    · cases read
    · split at read
      · cases read
      · dsimp only at read ⊢
        split at read
        · cases read
        · split at read
          · cases read
          · cases read
            simp only [*, Tensor.vectorOf?_ofVec]
  · cases read

theorem read?_ofVec {a : Statement α} {b : Literal α} {missing : Fault}
    (read : read? a b missing = .ok ⟨n, m, p, r⟩) (lam : Vec α m) (other : Fault) :
    read? a (.array (Tensor.ofVec lam)) other = .ok ⟨n, m, p, lam⟩ := by
  unfold read? at read
  split at read
  · cases read
  · obtain ⟨H, readH, read⟩ := exists_of_bind_eq_ok read
    obtain ⟨f, readf, read⟩ := exists_of_bind_eq_ok read
    obtain ⟨A, readA, read⟩ := exists_of_bind_eq_ok read
    obtain ⟨t, -, read⟩ := exists_of_bind_eq_ok read
    simp only [read?, readH, readf, readA, Literal.read_array]
    exact ofTensors?_ofVec read lam

theorem dual?_eq {a : Statement α} {b : Literal α}
    (read : read? a b .missingRightSide = .ok ⟨n, m, p, r⟩) : dual? a b = .ok ⟨m, p.dual r⟩ := by
  rw [dual?, read]
  rfl

theorem recover?_ofVec {a : Statement α} {b : Literal α} {missing : Fault}
    (read : read? a b missing = .ok ⟨n, m, p, r⟩) (lam : Vec α m) :
    recover? a (.array (Tensor.ofVec lam)) = .ok ⟨n, p.recover lam⟩ := by
  rw [recover?, read?_ofVec read]
  rfl

/-- A program that is solved has an inequality, and its answer is from a run on its dual. -/
theorem solve?_ok [TextForm α] {a : Statement α} {b : Literal α} {o : SolveOptions α}
    {c c' : Config α} {sol : Solution α} (positive : Arith.lt 0 c.epsilon = true)
    (read : read? a b .missingRightSide = .ok ⟨n, m, p, r⟩)
    (answered : solve? a b o c = .ok (c', sol)) :
    m ≠ 0 ∧ (∃ k, c' = { c with maxSteps := k }) ∧
      ∃ d : Problem α m, d.objective = p.dual r ∧
        BoxQP.Statement.start? d.objective o.start = .ok d.start ∧
        BoxQP.Statement.bound? m o.bound = .ok d.bound ∧
        sol = { n, z := p.recover (d.solve c' o.tracked).x, dual := ⟨m, d.solve c' o.tracked⟩ } := by
  obtain ⟨⟨_, q⟩, dual, answered⟩ := exists_of_bind_eq_ok answered
  cases (dual?_eq read).symm.trans (eq_ok_of_mapError dual)
  obtain ⟨⟨_, ⟨_, s⟩⟩, solved, answered⟩ := exists_of_bind_eq_ok answered
  obtain ⟨configured, ran⟩ := SolveOptions.solve?_ok positive solved
  obtain ⟨k, d, problem, same⟩ := Statement.solve?_ok ran
  cases same
  obtain ⟨objective, start, bound⟩ := Statement.problem?_ok problem
  rw [Statement.objective?_eq] at objective
  by_cases empty : m = 0
  · rw [if_pos empty] at objective
    cases objective
  · rw [if_neg empty] at objective
    obtain ⟨rfl, same⟩ := Sigma.mk.inj (Except.ok.inj objective)
    obtain ⟨⟨_, z⟩, recovered, answered⟩ := exists_of_bind_eq_ok answered
    cases (recover?_ofVec read (d.solve _ o.tracked).x).symm.trans (eq_ok_of_mapError recovered)
    cases answered
    exact ⟨empty, configured, d, (eq_of_heq same).symm, start, bound, rfl⟩

end Inequality

end BoxQP
