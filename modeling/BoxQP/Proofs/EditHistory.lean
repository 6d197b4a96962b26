import BoxQP.Proofs.Answers
import BoxQP.Proofs.Rounding

/-!
# Histories of a configuration

A configuration is what its settings say: whatever can be built or reached by edits reads
its own settings back to its own fields. An edit is therefore the construction from the old
settings with the changes among them, a field that it does not name is kept, and the ranges
that the readers check hold along every history. The counts are compared from below only, so
that a real count may be no number at all, and a tolerance has no value where the size of
the problem is beyond the doubles.
-/

namespace BoxQP

variable {α : Type}

theorem Policy.ofSetting?_name (p : Policy) :
    (ofSetting? (.text (.ofString p.name)) : Except (ConfigFault α) Policy) = .ok p := by
  simp only [ofSetting?, Codes.toString?_ofString, Option.bind_some, ofName?_name]

theorem Schedule.ofSetting?_name (o : Schedule) :
    (ofSetting? (.text (.ofString o.name)) : Except (ConfigFault α) Schedule) = .ok o := by
  simp only [ofSetting?, Codes.toString?_ofString, Option.bind_some, ofName?_name]

namespace Config

variable [Arith α] [TextForm α]

section Fields

variable {β : Type} {changes : Settings α} {name : String} {kept b : β}
  {read : Setting α → Except (ConfigFault α) β}

omit [Arith α] [TextForm α] in
theorem eq_of_unnamed (unnamed : changes.lookup name = none)
    (taken : field changes name kept read = .ok b) : b = kept := by
  rw [field, unnamed] at taken
  exact (Except.ok.inj taken).symm

omit [Arith α] [TextForm α] in
/-- A field is kept or has been read from a setting. -/
theorem field_cases (taken : field changes name kept read = .ok b) :
    b = kept ∨ ∃ v, read v = .ok b := by
  unfold field at taken
  split at taken
  · exact Or.inl (Except.ok.inj taken).symm
  · exact Or.inr ⟨_, taken⟩

end Fields

/-- What a successful change of named fields has read, field by field. -/
structure Replaces (c : Config α) (changes : Settings α) (d : Config α) : Prop where
  known : changes.find? (fun s => !names.contains s.1) = none
  epsilon : field changes "epsilon" c.epsilon readEpsilon = .ok d.epsilon
  policy : field changes "split" c.policy Policy.ofSetting? = .ok d.policy
  schedule : field changes "schedule" c.schedule Schedule.ofSetting? = .ok d.schedule
  positive : Arith.lt 0 d.epsilon = true
  threshold : field changes "threshold" c.threshold readThreshold = .ok d.threshold
  maxSteps : field changes "max_steps" c.maxSteps readBudget = .ok d.maxSteps
  checkEvery : field changes "check_every" c.checkEvery readPeriod = .ok d.checkEvery

theorem replaces_of_replace? {c d : Config α} {changes : Settings α}
    (replaced : c.replace? changes = .ok d) : c.Replaces changes d := by
  unfold replace? at replaced
  split at replaced
  · cases replaced
  · rename_i known
    obtain ⟨_, epsilon, replaced⟩ := exists_of_bind_eq_ok replaced
    obtain ⟨_, policy, replaced⟩ := exists_of_bind_eq_ok replaced
    obtain ⟨_, schedule, replaced⟩ := exists_of_bind_eq_ok replaced
    obtain ⟨_, checked, replaced⟩ := exists_of_bind_eq_ok replaced
    obtain ⟨_, threshold, replaced⟩ := exists_of_bind_eq_ok replaced
    obtain ⟨_, maxSteps, replaced⟩ := exists_of_bind_eq_ok replaced
    obtain ⟨_, checkEvery, replaced⟩ := exists_of_bind_eq_ok replaced
    cases replaced
    obtain ⟨rfl, positive⟩ := pos_of_checkEpsilon checked
    exact { known, epsilon, policy, schedule, positive, threshold, maxSteps, checkEvery }

/-- Each checked field is what its reader makes of its own setting. -/
structure ReadsBack (c : Config α) : Prop where
  epsilon : Arith.lt 0 c.epsilon = true
  threshold : readThreshold (c.threshold.elim .null Threshold.setting) = .ok c.threshold
  maxSteps : readBudget c.maxSteps.setting = .ok c.maxSteps
  checkEvery : readPeriod c.checkEvery.setting = .ok c.checkEvery

omit [TextForm α] in
/-- What a threshold can be read as. -/
theorem readThreshold_cases {v : Setting α} {t : Option (Threshold α)}
    (taken : readThreshold v = .ok t) :
    t = none ∨ (∃ x, t = some (.real x) ∧ Arith.lt 0 x = true) ∨
      ∃ k : Nat, t = some (.whole k) ∧ 1 ≤ k := by
  unfold readThreshold at taken
  split at taken
  · exact Or.inl (Except.ok.inj taken).symm
  · split at taken
    · rename_i x positive
      exact Or.inr (Or.inl ⟨x, (Except.ok.inj taken).symm, positive⟩)
    · cases taken
  · split at taken
    · cases taken
    · rename_i k _
      split at taken
      · exact Or.inr (Or.inr ⟨k.toNat, (Except.ok.inj taken).symm, by omega⟩)
      · split at taken <;> cases taken

omit [TextForm α] in
theorem readThreshold_again {v : Setting α} {t : Option (Threshold α)}
    (taken : readThreshold v = .ok t) :
    readThreshold (t.elim .null Threshold.setting) = .ok t := by
  rcases readThreshold_cases taken with rfl | ⟨x, rfl, positive⟩ | ⟨k, rfl, positive⟩
  · rfl
  · exact if_pos positive
  · have whole : (0 : Int) < k := by omega
    exact if_pos whole

omit [TextForm α] in
/-- A count that has been read is read again from its own setting. -/
theorem readCount_again {name : String} {least : Nat} {low : Setting α → ConfigFault α}
    {real : α → Count α} (own : ∀ x, (real x).real = some x) {v : Setting α} {k : Count α}
    (taken : readCount name least low real v = .ok k) :
    readCount name least low real k.setting = .ok k := by
  unfold readCount at taken
  split at taken
  · split at taken
    · cases taken
    · rename_i x small
      cases taken
      have shown : (real x).setting = .real x := by rw [Count.setting, own]
      rw [shown]
      exact if_neg small
  · split at taken
    · rename_i k _
      split at taken
      · cases taken
      · rename_i small
        cases taken
        have again : ((k.toNat : Nat) : Int) = k := by omega
        change (if ((k.toNat : Nat) : Int) < least then _ else _) = _
        rw [again]
        exact if_neg small
    · cases taken

theorem Replaces.readsBack {c d : Config α} {changes : Settings α}
    (replaced : c.Replaces changes d)
    (threshold : readThreshold (c.threshold.elim .null Threshold.setting) = .ok c.threshold)
    (maxSteps : readBudget c.maxSteps.setting = .ok c.maxSteps)
    (checkEvery : readPeriod c.checkEvery.setting = .ok c.checkEvery) : d.ReadsBack where
  epsilon := replaced.positive
  threshold := by
    rcases field_cases replaced.threshold with same | ⟨v, taken⟩
    · rw [same]
      exact threshold
    · exact readThreshold_again taken
  maxSteps := by
    rcases field_cases replaced.maxSteps with same | ⟨v, taken⟩
    · rw [same]
      exact maxSteps
    · exact readCount_again (fun _ => rfl) taken
  checkEvery := by
    rcases field_cases replaced.checkEvery with same | ⟨v, taken⟩
    · rw [same]
      exact checkEvery
    · exact readCount_again (fun _ => rfl) taken

/-- Whatever is built reads its settings back. -/
theorem readsBack_of_ofSettings? {c : Config α} {settings : Settings α}
    (built : ofSettings? settings = .ok c) : c.ReadsBack :=
  (replaces_of_replace? built).readsBack rfl rfl rfl

theorem ReadsBack.afterEdit {c : Config α} (sound : c.ReadsBack) (e : Edit α) :
    (c.afterEdit e).ReadsBack := by
  unfold Config.afterEdit
  cases answer : c.edit? e with
  | error _ => exact sound
  | ok d =>
    cases e with
    | assign _ _ => cases answer
    | replace changes =>
      exact (replaces_of_replace? answer).readsBack sound.threshold sound.maxSteps sound.checkEvery

theorem ReadsBack.afterEdits {c : Config α} (sound : c.ReadsBack) (edits : List (Edit α)) :
    (edits.foldl Config.afterEdit c).ReadsBack := by
  induction edits generalizing c with
  | nil => exact sound
  | cons e edits ih => exact ih (sound.afterEdit e)

theorem answers_append (c : Config α) (edits : List (Edit α)) (e : Edit α) :
    c.answers (edits ++ [e])
      = c.answers edits ++ [(edits.foldl Config.afterEdit c).edit? e] := by
  induction edits generalizing c with
  | nil => rfl
  | cons first edits ih => exact congrArg (c.edit? first :: ·) (ih (c.afterEdit first))

/-- The settings of a configuration with the changes in their places. -/
def merged (c : Config α) (changes : Settings α) : Settings α :=
  c.settings.map fun s => (s.1, (changes.lookup s.1).getD s.2)

section Merged

variable {c : Config α} {changes : Settings α}

omit [Arith α] [TextForm α] in
theorem lookup_merged (name : String) :
    (c.merged changes).lookup name
      = (c.settings.lookup name).map (changes.lookup name).getD := by
  unfold merged
  induction c.settings with
  | nil => rfl
  | cons s rest ih =>
    obtain ⟨other, v⟩ := s
    rw [List.map_cons, List.lookup_cons, List.lookup_cons, ih]
    by_cases same : name = other
    · subst same
      simp
    · simp [beq_false_of_ne same]

omit [Arith α] [TextForm α] in
/-- A field whose own setting reads back is read from the merged settings as it is from the
changes alone. -/
theorem field_merged {β : Type} {name : String} {v : Setting α} {kept : β} (other : β)
    {read : Setting α → Except (ConfigFault α) β} (listed : c.settings.lookup name = some v)
    (again : read v = .ok kept) :
    field (c.merged changes) name other read = field changes name kept read := by
  rw [field, field, lookup_merged, listed]
  cases changes.lookup name with
  | none => exact again
  | some _ => rfl

/-- A change of known fields is the construction from the merged settings, in its faults as
well. -/
theorem ReadsBack.ofSettings?_merged (sound : c.ReadsBack)
    (known : changes.find? (fun s => !names.contains s.1) = none) :
    ofSettings? (c.merged changes) = c.replace? changes := by
  have all_known : (c.merged changes).find? (fun s => !names.contains s.1) = none := rfl
  rw [ofSettings?, replace?, replace?, known, all_known]
  dsimp only
  have epsilon : readEpsilon (.real c.epsilon) = .ok c.epsilon := rfl
  rw [field_merged _ rfl epsilon,
    field_merged _ rfl (Policy.ofSetting?_name c.policy),
    field_merged _ rfl (Schedule.ofSetting?_name c.schedule),
    field_merged _ rfl sound.threshold, field_merged _ rfl sound.maxSteps,
    field_merged _ rfl sound.checkEvery]

end Merged

omit [Arith α] [TextForm α] in
theorem lookup_cons_congr {first : String} {v w : Setting α} {rest other : Settings α}
    {name : String} (head : name = first → w = v) (tail : other.lookup name = rest.lookup name) :
    List.lookup name ((first, w) :: other) = List.lookup name ((first, v) :: rest) := by
  rw [List.lookup_cons, List.lookup_cons, tail]
  split
  · rename_i same
    rw [head (eq_of_beq same)]
  · rfl

/-- A change keeps the settings that it does not name. -/
theorem Replaces.lookup_unnamed {c d : Config α} {changes : Settings α}
    (replaced : c.Replaces changes d) {name : String} (unnamed : changes.lookup name = none) :
    d.settings.lookup name = c.settings.lookup name := by
  rw [settings, settings]
  refine lookup_cons_congr ?_ <| lookup_cons_congr ?_ <| lookup_cons_congr ?_ <|
    lookup_cons_congr ?_ <| lookup_cons_congr ?_ <| lookup_cons_congr ?_ rfl
  · rintro rfl
    rw [eq_of_unnamed unnamed replaced.epsilon]
  · rintro rfl
    rw [eq_of_unnamed unnamed replaced.threshold]
  · rintro rfl
    rw [eq_of_unnamed unnamed replaced.maxSteps]
  · rintro rfl
    rw [eq_of_unnamed unnamed replaced.checkEvery]
  · rintro rfl
    rw [eq_of_unnamed unnamed replaced.policy]
  · rintro rfl
    rw [eq_of_unnamed unnamed replaced.schedule]

end Config

theorem Policy.mem_all (p : Policy) : p ∈ all := by
  cases p <;> decide

theorem Schedule.mem_all (o : Schedule) : o ∈ all := by
  cases o <;> decide

/-- The count is not below `least`, or it was given as a double that is no number. -/
def Count.AtLeast (least : Nat) (k : Count Float) : Prop :=
  match k.real with
  | none => least ≤ k.number
  | some x => x.isNaN = true ∨ Arith.le (Arith.ofInt least) x = true

/-- The tolerance is positive as it was given. -/
def Threshold.Positive : Threshold Float → Prop
  | .real x => Arith.lt 0 x = true
  | .whole k => 1 ≤ k

theorem Threshold.Positive.value_pos {t : Threshold Float} (positive : t.Positive) :
    Arith.lt 0 t.value = true := by
  cases t with
  | real x => exact positive
  | whole k => exact Double.ofInt_pos (Int.ofNat_le.mpr positive)

namespace Config

/-- The ranges of a configuration that calculates with doubles. -/
structure InRange (c : Config Float) : Prop where
  epsilon : Arith.lt 0 c.epsilon = true
  threshold : ∀ t ∈ c.threshold, t.Positive
  maxSteps : c.maxSteps.AtLeast 0
  checkEvery : c.checkEvery.AtLeast 1
  policy : c.policy ∈ Policy.all
  schedule : c.schedule ∈ Schedule.all

theorem atLeast_of_readCount {name : String} {least : Nat}
    {low : Setting Float → ConfigFault Float} {real : Float → Count Float}
    (own : ∀ x, (real x).real = some x)
    (defined : (Arith.ofInt least : Float).isNaN = false) {v : Setting Float} {k : Count Float}
    (taken : readCount name least low real v = .ok k) : k.AtLeast least := by
  unfold readCount at taken
  split at taken
  · split at taken
    · cases taken
    · rename_i x small
      cases taken
      rw [Count.AtLeast, own]
      exact Double.isNaN_or_le defined (Bool.eq_false_of_not_eq_true small)
  · split at taken
    · split at taken
      · cases taken
      · rename_i small
        cases taken
        simp only [Count.AtLeast, Count.whole]
        omega
    · cases taken

theorem ReadsBack.inRange {c : Config Float} (sound : c.ReadsBack) : c.InRange where
  epsilon := sound.epsilon
  threshold t given := by
    rcases readThreshold_cases sound.threshold with
      absent | ⟨x, same, positive⟩ | ⟨k, same, positive⟩
    · cases absent.symm.trans given
    · cases same.symm.trans given
      exact positive
    · cases same.symm.trans given
      exact positive
  maxSteps := atLeast_of_readCount (fun _ => rfl) (by decide +kernel) sound.maxSteps
  checkEvery := atLeast_of_readCount (fun _ => rfl) (by decide +kernel) sound.checkEvery
  policy := c.policy.mem_all
  schedule := c.schedule.mem_all

theorem InRange.tolerance_pos {c : Config Float} (inRange : c.InRange) {n : Int} (first : 1 ≤ n) :
    Arith.lt 0 (c.tolerance n) = true := by
  unfold tolerance
  cases given : c.threshold with
  | none => exact Double.ofInt_mul_pos first inRange.epsilon
  | some t => exact (inRange.threshold t given).value_pos

theorem InRange.tolerance?_cases {c : Config Float} (inRange : c.InRange) {n : Int}
    (first : 1 ≤ n) :
    (∃ t, c.tolerance? n = .ok t ∧ Arith.lt 0 t = true) ∨
      (c.threshold = none ∧ Arith.isFinite (Arith.ofInt n : Float) = false ∧
        c.tolerance? n = .error .tooLarge) := by
  by_cases has_value : (c.threshold.isSome || Arith.isFinite (Arith.ofInt n : Float)) = true
  · exact Or.inl ⟨c.tolerance n, if_pos has_value, inRange.tolerance_pos first⟩
  · have failed : c.tolerance? n = .error .tooLarge := if_neg has_value
    rw [Bool.or_eq_true, not_or, Option.not_isSome_iff_eq_none, Bool.not_eq_true] at has_value
    exact Or.inr ⟨has_value.1, has_value.2, failed⟩

/-- What holds of every configuration that a history of edits comes to. Its fields are in
range, and its tolerance for a problem of any size from one on is positive where it has a
value, which it has not for a size beyond the doubles alone. An edit is answered by the
configuration that the edits before have left: a change that succeeds answers what is built
from the merged settings and keeps the settings it does not name, and an edit that fails,
as each assignment does, leaves the configuration as it is. -/
theorem edits_keep_range {settings : Settings Float} {c : Config Float}
    (built : ofSettings? settings = .ok c) (edits : List (Edit Float)) :
    let d := edits.foldl Config.afterEdit c
    d.InRange ∧
      (∀ n : Int, 1 ≤ n →
        (∃ t, d.tolerance? n = .ok t ∧ Arith.lt 0 t = true) ∨
          (d.threshold = none ∧ Arith.isFinite (Arith.ofInt n : Float) = false ∧
            d.tolerance? n = .error .tooLarge)) ∧
      (∀ e, c.answers (edits ++ [e]) = c.answers edits ++ [d.edit? e]) ∧
      (∀ changes d', d.edit? (.replace changes) = .ok d' →
        d.afterEdit (.replace changes) = d' ∧
          ofSettings? (d.merged changes) = .ok d' ∧
          ∀ name, changes.lookup name = none →
            d'.settings.lookup name = d.settings.lookup name) ∧
      (∀ e f, d.edit? e = .error f → d.afterEdit e = d) ∧
      ∀ name value, d.edit? (.assign name value) = .error .frozen := by
  intro d
  have sound : d.ReadsBack := (readsBack_of_ofSettings? built).afterEdits edits
  refine ⟨sound.inRange, ?_, answers_append c edits, ?_, ?_, fun _ _ => rfl⟩
  · exact fun n first => sound.inRange.tolerance?_cases first
  · intro changes d' replaced
    have answer : d.replace? changes = .ok d' := replaced
    have fields := replaces_of_replace? answer
    refine ⟨?_, ?_, fun name unnamed => fields.lookup_unnamed unnamed⟩
    · rw [Config.afterEdit, replaced]
    · rw [sound.ofSettings?_merged fields.known, answer]
  · intro e f failed
    rw [Config.afterEdit, failed]

/-- The standard configuration with a budget of seven steps. -/
def sevenSteps : Config Float := { standard with maxSteps := .whole 7 }

/-- A change, a change that fails and an assignment, after which the new floor is in force. -/
theorem edits_keep_range_sevenSteps :
    let settings : Settings Float := [("max_steps", .integer 7)]
    let edits : List (Edit Float) :=
      [.replace [("epsilon", .real 0.5)], .replace [("check_every", .integer 0)],
        .assign "epsilon" .null]
    let d := edits.foldl Config.afterEdit sevenSteps
    ofSettings? settings = .ok sevenSteps ∧ d.InRange ∧
      ∃ t, d.tolerance? 3 = .ok t ∧ Arith.lt 0 t = true := by
  intro settings edits d
  have built : ofSettings? settings = .ok sevenSteps :=
    replace?_maxSteps (by decide +kernel) (.integer 7)
  obtain ⟨inRange, tolerances, -⟩ := edits_keep_range built edits
  have finite : Arith.isFinite (Arith.ofInt 3 : Float) = true := by decide +kernel
  refine ⟨built, inRange, (tolerances 3 (by decide)).resolve_right fun beyond => ?_⟩
  exact Bool.false_ne_true (beyond.2.1.symm.trans finite)

/-- Both counts are accepted where they are no numbers, and the standard tolerance has no
value for a problem whose size is beyond the doubles. -/
theorem undefined_counts_accepted :
    (∃ c : Config Float,
      ofSettings? [("max_steps", .real Arith.undefined), ("check_every", .real Arith.undefined)]
          = .ok c ∧
        c.maxSteps.real = some Arith.undefined ∧ c.checkEvery.real = some Arith.undefined) ∧
      Arith.le 0 (Arith.undefined : Float) = false ∧
      Arith.le 1 (Arith.undefined : Float) = false ∧
      (∃ c : Config Float, ofSettings? [] = .ok c ∧
        c.tolerance? (10 ^ 400) = .error .tooLarge) := by
  have beyond : ¬ ((standard : Config Float).threshold.isSome
      || Arith.isFinite (Arith.ofInt (10 ^ 400) : Float)) = true := by
    decide +kernel
  exact ⟨⟨_, rfl, rfl, rfl⟩, by decide +kernel, by decide +kernel, standard, rfl, if_neg beyond⟩

end Config

end BoxQP
