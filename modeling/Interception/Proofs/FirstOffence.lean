import Interception.Proofs.SettingUp
import Mathlib.Data.List.Nodup
import Mathlib.Data.List.Perm.Basic

/-!
# The first offence of a configuration

A configuration is refused for one reason, and when there are several it is the one that a reader
going through the targets from the front meets first (`Interception.Config.validate_of_targets`).
Which one this is can be said without going through them: a target offends by itself, if a name of
it is empty, or by where it stands, behind a target that equals it (`Config.OffendsAt`).

The search remembers the targets it has passed, without their order. What carries the statement
through it is that nothing among these offends (`Config.targetOffence?_eq_some_iff`), so that a
target equals one of them just if it equals an earlier one.

Equal targets agree in all three of type, operation and level. Two targets that read the same,
because a name contains the character that separates type and operation, are not equal.
-/

namespace Interception

namespace Config

variable {before targets passed rest : List Key} {target : Key} {offence : Offence} {i : Nat}

/-- **A target that offends**: a name of the one at place `i` is empty, or it equals an earlier
one. -/
def OffendsAt (targets : List Key) (i : Nat) (target : Key) : Prop :=
  targets[i]? = some target ∧
    ((target.typeName = "" ∨ target.operation = "") ∨ ∃ j < i, targets[j]? = some target)

/-- **The target that is reported**: it offends, and none before it does. -/
structure IsFirstOffender (targets : List Key) (i : Nat) (target : Key) : Prop where
  offends : OffendsAt targets i target
  first : ∀ j < i, ∀ other, ¬OffendsAt targets j other

/-- What is said of a target that offends: an empty name comes before a repetition. -/
def offenceOf (target : Key) : Offence :=
  if target.typeName = "" ∨ target.operation = "" then .emptyName target else .duplicate target

/-! ### The search -/

/-- **Where the search stops**: it has passed targets that do not offend, and the next one lacks a
name, or is among those that came before or were passed. -/
theorem targetOffence?_eq_some_iff :
    targetOffence? before targets = some offence ↔
      ∃ passed target rest, targets = passed ++ target :: rest ∧
        targetOffence? before passed = none ∧
        ((target.typeName = "" ∨ target.operation = "") ∨ target ∈ before ∨ target ∈ passed) ∧
        offence = offenceOf target := by
  induction targets generalizing before with
  | nil =>
    refine iff_of_false nofun ?_
    rintro ⟨passed, target, rest, h, -⟩
    exact List.append_ne_nil_of_right_ne_nil passed (List.cons_ne_nil target rest) h.symm
  | cons head tail ih =>
    by_cases hhead : (head.typeName = "" ∨ head.operation = "") ∨ head ∈ before
    -- the search stops here, and cannot have passed this target
    · have hstop : ∀ rest, targetOffence? before (head :: rest) = some (offenceOf head) := by
        intro rest
        rw [targetOffence?, offenceOf]
        split
        · rfl
        · next hname => rw [if_pos (hhead.resolve_left hname)]
      rw [hstop, Option.some.injEq]
      constructor
      · rintro rfl
        exact ⟨[], head, tail, rfl, rfl, hhead.imp_right .inl, rfl⟩
      · rintro ⟨passed, target, rest, hsplit, hpassed, -, rfl⟩
        cases passed with
        | nil => rw [(List.cons.inj hsplit).1]
        | cons other passed =>
          obtain ⟨rfl, -⟩ := List.cons.inj hsplit
          rw [hstop] at hpassed
          cases hpassed
    -- the search goes on, and remembers this target
    · rw [not_or] at hhead
      have hgo : ∀ rest,
          targetOffence? before (head :: rest) = targetOffence? (head :: before) rest := by
        intro rest
        rw [targetOffence?, if_neg hhead.1, if_neg hhead.2]
      rw [hgo, ih]
      constructor
      · rintro ⟨passed, target, rest, rfl, hpassed, hwhy, rfl⟩
        refine ⟨head :: passed, target, rest, rfl, (hgo passed).trans hpassed, ?_, rfl⟩
        simp only [List.mem_cons] at hwhy ⊢
        tauto
      · rintro ⟨passed, target, rest, hsplit, hpassed, hwhy, rfl⟩
        cases passed with
        | nil =>
          obtain ⟨rfl, -⟩ := List.cons.inj hsplit
          simp [hhead] at hwhy
        | cons other passed =>
          obtain ⟨rfl, rfl⟩ := List.cons.inj hsplit
          refine ⟨passed, target, rest, rfl, (hgo passed).symm.trans hpassed, ?_, rfl⟩
          simp only [List.mem_cons] at hwhy ⊢
          tauto

/-! ### Places -/

/-- No offence is found just if no target offends. -/
theorem targetOffence?_nil_eq_none_iff :
    targetOffence? [] targets = none ↔ ∀ i target, ¬OffendsAt targets i target := by
  rw [targetOffence?_eq_none_iff]
  constructor
  · rintro ⟨hnames, hnodup, -⟩ i target ⟨hi, hname | ⟨j, hj, hjt⟩⟩
    · obtain ⟨htype, hoperation⟩ := hnames target (List.mem_of_getElem? hi)
      exact hname.elim htype hoperation
    · obtain ⟨hlt, rfl⟩ := List.getElem?_eq_some_iff.mp hi
      obtain ⟨hlt', he⟩ := List.getElem?_eq_some_iff.mp hjt
      exact absurd (hnodup.getElem_inj_iff.mp he) (Nat.ne_of_lt hj)
  · intro h
    refine ⟨fun target hmem => ?_, List.pairwise_iff_getElem.mpr ?_, by simp⟩
    · obtain ⟨i, hi⟩ := List.mem_iff_getElem?.mp hmem
      exact not_or.mp fun hname => h i target ⟨hi, .inl hname⟩
    · intro j i hlt' hlt hj he
      exact h i targets[i] ⟨List.getElem?_eq_getElem hlt, .inr ⟨j, hj, by
        rw [List.getElem?_eq_getElem hlt', he]⟩⟩

/-- Whether a target offends is a matter of those in front of it. -/
theorem offendsAt_append_of_lt (hi : i < passed.length) :
    OffendsAt (passed ++ rest) i target ↔ OffendsAt passed i target := by
  have hearlier : (∃ j < i, (passed ++ rest)[j]? = some target) ↔
      ∃ j < i, passed[j]? = some target := by
    refine exists_congr fun j => and_congr_right fun hj => ?_
    rw [List.getElem?_append_left (Nat.lt_trans hj hi)]
  rw [OffendsAt, OffendsAt, hearlier, List.getElem?_append_left hi]

/-- Behind the targets that were passed, a target offends if it lacks a name or is one of them. -/
theorem offendsAt_length :
    OffendsAt (passed ++ target :: rest) passed.length target ↔
      (target.typeName = "" ∨ target.operation = "") ∨ target ∈ passed := by
  have hearlier : (∃ j < passed.length, (passed ++ target :: rest)[j]? = some target) ↔
      target ∈ passed := by
    rw [List.mem_iff_getElem?]
    constructor
    · rintro ⟨j, hj, h⟩
      exact ⟨j, by rwa [List.getElem?_append_left hj] at h⟩
    · rintro ⟨j, h⟩
      obtain ⟨hj, -⟩ := List.getElem?_eq_some_iff.mp h
      exact ⟨j, hj, by rwa [List.getElem?_append_left hj]⟩
  have hhere : (passed ++ target :: rest)[passed.length]? = some target := by simp
  rw [OffendsAt, hearlier, hhere, eq_self_iff_true, true_and]

/-- **The search finds the first offender.** -/
theorem targetOffence?_nil_eq_some_iff :
    targetOffence? [] targets = some offence ↔
      ∃ i target, IsFirstOffender targets i target ∧ offence = offenceOf target := by
  rw [targetOffence?_eq_some_iff]
  constructor
  · rintro ⟨passed, target, rest, rfl, hpassed, hwhy, rfl⟩
    rw [targetOffence?_nil_eq_none_iff] at hpassed
    refine ⟨passed.length, target, ⟨offendsAt_length.mpr ?_, fun j hj other hother => ?_⟩, rfl⟩
    · simpa using hwhy
    · exact hpassed j other ((offendsAt_append_of_lt hj).mp hother)
  · rintro ⟨i, target, h, rfl⟩
    obtain ⟨hlt, hhere⟩ := List.getElem?_eq_some_iff.mp h.offends.1
    have hsplit : targets = targets.take i ++ target :: targets.drop (i + 1) := by
      rw [← hhere, ← List.drop_eq_getElem_cons hlt, List.take_append_drop]
    have hlength : (targets.take i).length = i := by
      rw [List.length_take, Nat.min_eq_left (Nat.le_of_lt hlt)]
    refine ⟨targets.take i, target, targets.drop (i + 1), hsplit, ?_, ?_, rfl⟩
    · rw [targetOffence?_nil_eq_none_iff]
      intro j other hother
      obtain ⟨hj, -⟩ := List.getElem?_eq_some_iff.mp hother.1
      refine h.first j (hlength ▸ hj) other ?_
      rw [hsplit]
      exact (offendsAt_append_of_lt hj).mpr hother
    · have hoffends : OffendsAt (targets.take i ++ target :: targets.drop (i + 1))
          (targets.take i).length target := by
        rw [← hsplit, hlength]
        exact h.offends
      exact (offendsAt_length.mp hoffends).imp_right .inr

/-! ### The configuration -/

/-- **What is reported**: the missing room before anything else, and then the first offender. -/
theorem validate_eq_some_iff {config : Config} :
    config.validate = some offence ↔
      config.collectorCapacity = 0 ∧ offence = .noCapacity ∨
        0 < config.collectorCapacity ∧
          ∃ i target, IsFirstOffender config.targets i target ∧ offence = offenceOf target := by
  rw [validate]
  by_cases hroom : config.collectorCapacity = 0
  · simp [hroom, eq_comm]
  · simp [hroom, Nat.pos_of_ne_zero hroom, targetOffence?_nil_eq_some_iff]

theorem text_offenceOf (target : Key) :
    (offenceOf target).text =
      if target.typeName = "" ∨ target.operation = "" then
        "target " ++ target.display ++ " has an empty type or operation name"
      else "duplicate target " ++ target.display := by
  rw [offenceOf]
  split <;> rfl

/-- **Validation is exact, and reports the first offence.** A configuration passes just if its
collector has room, all names are there, and no two targets agree in type, operation and level.
Where it does not pass, what is reported is the missing room, if it is missing, and otherwise the
first target that lacks a name or equals an earlier one: as empty in the former case and as a
duplicate only if it has its names. The order of the targets is no reason to refuse them. -/
theorem validate_of_targets (config : Config) :
    (config.validate = none ↔
        0 < config.collectorCapacity ∧
          (∀ target ∈ config.targets, target.typeName ≠ "" ∧ target.operation ≠ "") ∧
            config.targets.Pairwise fun a b =>
              (a.typeName, a.operation, a.level) ≠ (b.typeName, b.operation, b.level)) ∧
      (∀ offence, config.validate = some offence ↔
        config.collectorCapacity = 0 ∧ offence = .noCapacity ∨
          0 < config.collectorCapacity ∧
            ∃ i target, IsFirstOffender config.targets i target ∧ offence = offenceOf target) ∧
      (config.collectorCapacity = 0 →
        config.validate.map Offence.text = some "collector_capacity must be > 0") ∧
      (∀ i target, 0 < config.collectorCapacity → IsFirstOffender config.targets i target →
        config.validate.map Offence.text =
          some (if target.typeName = "" ∨ target.operation = "" then
            "target " ++ target.display ++ " has an empty type or operation name"
          else "duplicate target " ++ target.display)) ∧
      ∀ targets, targets.Perm config.targets →
        ({ config with targets }.validate = none ↔ config.validate = none) := by
  have hkeys : ∀ a b : Key, a ≠ b ↔
      (a.typeName, a.operation, a.level) ≠ (b.typeName, b.operation, b.level) := by
    rintro ⟨type, operation, level⟩ ⟨type', operation', level'⟩
    simp
  refine ⟨?_, fun offence => validate_eq_some_iff, fun hroom => ?_, fun i target hroom hfirst => ?_,
    fun targets hperm => ?_⟩
  · rw [validate_eq_none_iff, List.Nodup]
    simp only [hkeys]
  · rw [validate_eq_some_iff.mpr (.inl ⟨hroom, rfl⟩)]
    rfl
  · rw [validate_eq_some_iff.mpr (.inr ⟨hroom, i, target, hfirst, rfl⟩), Option.map_some,
      text_offenceOf]
  · rw [validate_eq_none_iff, validate_eq_none_iff, hperm.nodup_iff]
    simp only [hperm.mem_iff]

/-- Two targets may read the same and differ. -/
example : validate { standard with targets := [.ofType "a.b" "c", .ofType "a" "b.c"] } = none := by
  decide

end Config

end Interception
