import BoxQP.Count
import BoxQP.Iteration
import BoxQP.Update

/-!
# Configuration of a run

A configuration is built from named settings and never changes; an edit answers a new one, checked like the
first. Names are judged before values, then the values of `epsilon`, `split` and `schedule` are read, and
then the ranges are checked in the order `epsilon`, `threshold`, `max_steps`, `check_every`.
-/

namespace BoxQP

/-- A tolerance as it was given: a real number, or a whole one, which is kept as it is. -/
inductive Threshold (α : Type) where
  | real (x : α)
  | whole (k : Nat)

structure Config (α : Type) where
  epsilon : α
  threshold : Option (Threshold α)
  maxSteps : Count α
  checkEvery : Count α
  policy : Policy
  schedule : Schedule

inductive ConfigFault (α : Type) where
  | unknownName (name : String)
  /-- A value of a kind that the parameter does not take. -/
  | wrongKind (name : String)
  /-- A whole number beyond the range of the arithmetic. -/
  | tooLarge
  /-- A text that should be a number and is none. -/
  | unreadable (text : Codes)
  | unknownPolicy (given : Setting α)
  | unknownSchedule (given : Setting α)
  | epsilonNotPositive (given : α)
  | thresholdNotPositive (given : Setting α)
  | negativeBudget (given : Setting α)
  | checkTooSmall (given : Setting α)
  /-- A field of a finished configuration is assigned to. -/
  | frozen

variable {α : Type}

/-- The text of a fault, for those that have one. -/
def ConfigFault.message [TextForm α] : ConfigFault α → Option String
  | .unknownPolicy given => some (given.write ++ " is not a valid SplitPolicy")
  | .unknownSchedule given => some (given.write ++ " is not a valid UpdateSchedule")
  | .epsilonNotPositive given => some ("epsilon must be positive, got " ++ TextForm.write given)
  | .thresholdNotPositive given => some ("threshold must be positive, got " ++ given.write)
  | .negativeBudget given => some ("max_steps must be non-negative, got " ++ given.write)
  | .checkTooSmall given => some ("check_every must be at least 1, got " ++ given.write)
  | _ => none

namespace Threshold

/-- The number that a residual is compared with. -/
def value [Arith α] : Threshold α → α
  | .real x => x
  | .whole k => Arith.ofInt k

instance [Arith α] : CoeOut (Threshold α) α := ⟨value⟩

/-- Can a residual be compared with it? A whole number takes part as one of 64 bits with a sign. -/
def comparable : Threshold α → Bool
  | .real _ => true
  | .whole k => decide (k < Count.counterBound)

/-- The setting that gives this tolerance. -/
def setting : Threshold α → Setting α
  | .real x => .real x
  | .whole k => .integer k

end Threshold

def Policy.ofSetting? : Setting α → Except (ConfigFault α) Policy
  | .text s =>
    match s.toString?.bind Policy.ofName? with
    | some p => .ok p
    | none => .error (.unknownPolicy (.text s))
  | v => .error (.unknownPolicy v)

def Schedule.ofSetting? : Setting α → Except (ConfigFault α) Schedule
  | .text s =>
    match s.toString?.bind Schedule.ofName? with
    | some o => .ok o
    | none => .error (.unknownSchedule (.text s))
  | v => .error (.unknownSchedule v)

namespace Config

def names : List String := ["epsilon", "threshold", "max_steps", "check_every", "split", "schedule"]

def standard [Arith α] : Config α where
  epsilon := 1 / Arith.ofInt 1000000
  threshold := none
  maxSteps := .whole 10000
  checkEvery := .whole 32
  policy := .simple
  schedule := .synchronous

/-- The tolerance on the residual of a problem of size `n`, which is `n * epsilon` unless it is given. -/
def tolerance [Arith α] (c : Config α) (n : Int) : α :=
  (c.threshold.map Threshold.value).getD (Arith.ofInt n * c.epsilon)

/-- The tolerance, refused where it takes a size beyond the range of the arithmetic. -/
def tolerance? [Arith α] (c : Config α) (n : Int) : Except (ConfigFault α) α :=
  if c.threshold.isSome || Arith.isFinite (Arith.ofInt n : α) then .ok (c.tolerance n)
  else .error .tooLarge

/-- Can the step counter and the residual of a run be compared with what the configuration says? -/
structure Steppable (c : Config α) : Prop where
  period : c.checkEvery.comparable = true
  threshold : ∀ t ∈ c.threshold, t.comparable = true

/-- A run by this configuration comes to an end, whatever the problem: its budget is one that the step
counter spends, and a whole one where a history is kept. -/
structure Countable [Arith α] (c : Config α) (tracked : Bool) : Prop extends Steppable c where
  shown : ∀ x ∈ c.maxSteps.real, Arith.isFinite x = true
  whole : tracked = true → c.maxSteps.real = none
  budget : c.maxSteps.fits = true

/-- The same configuration with a whole budget. -/
def withBudget (c : Config α) (B : Nat) : Config α := { c with maxSteps := .whole B }

/-- Can a run by this configuration be started? The budget is shown first, a history asks for a whole one,
and the whole numbers that are compared with have to be within the range of the counter. -/
def runnable? [Arith α] (c : Config α) (tracked : Bool) : Except Fault Unit := do
  c.maxSteps.shown?
  if tracked && c.maxSteps.real.isSome then .error .fractionalHistory
  else if !(c.maxSteps.comparable && c.checkEvery.comparable) then .error .countTooLarge
  else if !c.threshold.all Threshold.comparable then .error .wholeTooLarge
  else .ok ()

def stopRule [Arith α] (c : Config α) (n : Nat) : StopRule α where
  threshold := c.tolerance n
  checkEvery := c.checkEvery.number

/-- A number; a flag counts as one or zero. -/
def readNumber [Arith α] (name : String) : Setting α → Except (ConfigFault α) α
  | .flag b => .ok (Arith.ofInt (if b then 1 else 0))
  | .integer k =>
    let x : α := Arith.ofInt k
    if Arith.isFinite x then .ok x else .error .tooLarge
  | .real x => .ok x
  | _ => .error (.wrongKind name)

def readEpsilon [Arith α] [TextForm α] : Setting α → Except (ConfigFault α) α
  | .text s =>
    match s.toString?.bind TextForm.read? with
    | some x => .ok x
    | none => .error (.unreadable s)
  | v => readNumber "epsilon" v

/-- A threshold, checked as it is read. A refused flag is shown as it is given, and a refused number as a
real one. -/
def readThreshold [Arith α] : Setting α → Except (ConfigFault α) (Option (Threshold α))
  | .null => .ok none
  | .real x =>
    if Arith.lt 0 x then .ok (some (.real x)) else .error (.thresholdNotPositive (.real x))
  | v =>
    match v.integer? with
    | none => .error (.wrongKind "threshold")
    | some k =>
      if 0 < k then .ok (some (.whole k.toNat))
      else match v with
        | .flag b => .error (.thresholdNotPositive (.flag b))
        | _ => .error (.thresholdNotPositive (.real (Arith.ofInt k)))

/-- A number of steps from `least` on; `low` is the fault of a smaller one, and `real` the count that a
real number stands for. -/
def readCount [Arith α] (name : String) (least : Nat) (low : Setting α → ConfigFault α)
    (real : α → Count α) (v : Setting α) : Except (ConfigFault α) (Count α) :=
  match v with
  | .real x => if Arith.lt x (Arith.ofInt least) then .error (low v) else .ok (real x)
  | v =>
    match v.integer? with
    | some k => if k < least then .error (low v) else .ok (.whole k.toNat)
    | none => .error (.wrongKind name)

def readBudget [Arith α] [TextForm α] : Setting α → Except (ConfigFault α) (Count α) :=
  readCount "max_steps" 0 .negativeBudget Count.budget

def readPeriod [Arith α] [TextForm α] : Setting α → Except (ConfigFault α) (Count α) :=
  readCount "check_every" 1 .checkTooSmall Count.period

def checkEpsilon [Arith α] (x : α) : Except (ConfigFault α) α :=
  if Arith.lt 0 x then .ok x else .error (.epsilonNotPositive x)

/-- Reads the setting of that name, or keeps the value at hand where there is none. -/
def field {β : Type} (changes : Settings α) (name : String) (kept : β)
    (read : Setting α → Except (ConfigFault α) β) : Except (ConfigFault α) β :=
  match changes.lookup name with
  | none => .ok kept
  | some v => read v

/-- The configuration with the named fields changed. -/
def replace? [Arith α] [TextForm α] (c : Config α) (changes : Settings α) :
    Except (ConfigFault α) (Config α) := do
  match changes.find? (fun s => !names.contains s.1) with
  | some s => .error (.unknownName s.1)
  | none =>
    let epsilon ← field changes "epsilon" c.epsilon readEpsilon
    let policy ← field changes "split" c.policy Policy.ofSetting?
    let schedule ← field changes "schedule" c.schedule Schedule.ofSetting?
    let epsilon ← checkEpsilon epsilon
    let threshold ← field changes "threshold" c.threshold readThreshold
    let maxSteps ← field changes "max_steps" c.maxSteps readBudget
    let checkEvery ← field changes "check_every" c.checkEvery readPeriod
    .ok { epsilon, threshold, maxSteps, checkEvery, policy, schedule }

/-- A configuration from settings; parameters that are not named take their standard values. -/
def ofSettings? [Arith α] [TextForm α] (settings : Settings α) : Except (ConfigFault α) (Config α) :=
  replace? standard settings

/-- The settings that spell a configuration out. -/
def settings (c : Config α) : Settings α :=
  [("epsilon", .real c.epsilon),
   ("threshold", c.threshold.elim .null Threshold.setting),
   ("max_steps", c.maxSteps.setting),
   ("check_every", c.checkEvery.setting),
   ("split", .text (.ofString c.policy.name)),
   ("schedule", .text (.ofString c.schedule.name))]

/-- What a caller can try on a finished configuration. -/
inductive Edit (α : Type) where
  | replace (changes : Settings α)
  | assign (name : String) (value : Setting α)

def edit? [Arith α] [TextForm α] (c : Config α) : Edit α → Except (ConfigFault α) (Config α)
  | .replace changes => c.replace? changes
  | .assign _ _ => .error .frozen

/-- The current configuration after an edit, which is the old one if the edit fails. -/
def afterEdit [Arith α] [TextForm α] (c : Config α) (e : Edit α) : Config α :=
  match c.edit? e with
  | .ok d => d
  | .error _ => c

/-- The answers to a series of edits. -/
def answers [Arith α] [TextForm α] (c : Config α) :
    List (Edit α) → List (Except (ConfigFault α) (Config α))
  | [] => []
  | e :: es => c.edit? e :: answers (c.afterEdit e) es

/-- The ranges that every configuration keeps. -/
structure Valid [Arith α] (c : Config α) : Prop where
  epsilon_pos : Arith.lt 0 c.epsilon = true
  threshold_pos : ∀ t, c.threshold = some t → Arith.lt 0 t.value = true
  checkEvery_pos : 1 ≤ c.checkEvery.number

theorem pos_of_checkEpsilon [Arith α] {x y : α} (taken : checkEpsilon x = .ok y) :
    y = x ∧ Arith.lt 0 y = true := by
  unfold checkEpsilon at taken
  split at taken
  · cases taken
    exact ⟨rfl, by assumption⟩
  · cases taken

theorem steppable_iff {c : Config α} :
    c.Steppable ↔ c.checkEvery.comparable = true ∧ c.threshold.all Threshold.comparable = true := by
  have compared : c.threshold.all Threshold.comparable = true ↔
      ∀ t ∈ c.threshold, t.comparable = true := by
    cases c.threshold <;> simp
  rw [compared]
  exact ⟨fun s => ⟨s.period, s.threshold⟩, fun s => ⟨s.1, s.2⟩⟩

section Runnable

variable [Arith α] {c : Config α} {tracked : Bool}

theorem runnable?_eq_ok_iff :
    c.runnable? tracked = .ok () ↔ (∀ x ∈ c.maxSteps.real, Arith.isFinite x = true) ∧
      (tracked = true → c.maxSteps.real = none) ∧ c.maxSteps.comparable = true ∧ c.Steppable := by
  rw [← Count.shown?_eq_ok_iff, steppable_iff]
  have history : (tracked && c.maxSteps.real.isSome) = false ↔
      (tracked = true → c.maxSteps.real = none) := by
    cases tracked <;> simp
  rw [← history]
  cases shown : c.maxSteps.shown? with
  | error f => simp [runnable?, shown, bind, Except.bind]
  | ok _ =>
    simp only [runnable?, shown, bind, Except.bind]
    cases tracked && c.maxSteps.real.isSome <;> cases c.maxSteps.comparable <;>
      cases c.checkEvery.comparable <;> cases c.threshold.all Threshold.comparable <;> simp

theorem Steppable.countable_withBudget (steppable : c.Steppable) {B : Nat} (inside : B < Count.counterBound) :
    (c.withBudget B).Countable tracked :=
  { period := steppable.period, threshold := steppable.threshold, shown := nofun, whole := fun _ => rfl,
    budget := decide_eq_true inside }

theorem countable_standard (tracked : Bool) : (standard : Config α).Countable tracked :=
  Steppable.countable_withBudget (c := standard) (B := 10000) ⟨rfl, nofun⟩ (by decide)

theorem runnable?_of_countable (countable : c.Countable tracked) : c.runnable? tracked = .ok () :=
  runnable?_eq_ok_iff.mpr ⟨countable.shown, countable.whole, Count.comparable_of_fits countable.budget,
    countable.toSteppable⟩

/-- A whole budget is spent by every run that can be started. -/
theorem countable_of_whole (whole : c.maxSteps.real = none) (runs : c.runnable? tracked = .ok ()) :
    c.Countable tracked := by
  obtain ⟨shown, history, budget, steppable⟩ := runnable?_eq_ok_iff.mp runs
  rw [Count.comparable, whole] at budget
  exact { steppable with shown, whole := history, budget }

/-- What a run can be refused for before it begins. -/
theorem runnable?_error_cases {f : Fault} (stopped : c.runnable? tracked = .error f) :
    c.maxSteps.shown? = .error f ∨ (f = .fractionalHistory ∧ c.maxSteps.real ≠ none) ∨
      f = .countTooLarge ∨ f = .wholeTooLarge := by
  cases shown : c.maxSteps.shown? with
  | error g =>
    rw [runnable?, shown] at stopped
    cases stopped
    exact Or.inl rfl
  | ok _ =>
    simp only [runnable?, shown, bind, Except.bind] at stopped
    split at stopped
    · rename_i history
      cases stopped
      refine Or.inr (Or.inl ⟨rfl, fun whole => ?_⟩)
      simp [whole] at history
    · split at stopped
      · cases stopped
        exact Or.inr (Or.inr (Or.inl rfl))
      · split at stopped <;> cases stopped
        exact Or.inr (Or.inr (Or.inr rfl))

/-- With a whole budget a run is refused for nothing but numbers that cannot be compared with. -/
theorem runnable?_error_of_whole (whole : c.maxSteps.real = none) {f : Fault}
    (stopped : c.runnable? tracked = .error f) : f = .countTooLarge ∨ f = .wholeTooLarge := by
  rcases runnable?_error_cases stopped with unshown | ⟨-, fractional⟩ | beyond
  · rw [Count.shown?, whole] at unshown
    cases unshown
  · exact absurd whole fractional
  · exact beyond

end Runnable

/-- Replacing nothing answers the same configuration. -/
theorem replace?_nil [Arith α] [TextForm α] (c : Config α) (valid : c.Valid) :
    c.replace? [] = .ok c := by
  have e : checkEpsilon c.epsilon = .ok c.epsilon := if_pos valid.epsilon_pos
  simp only [replace?, field, List.find?_nil, List.lookup_nil]
  change (checkEpsilon c.epsilon >>= _) = _
  rw [e]
  rfl

end Config

end BoxQP
