import Interception.Proofs.History
import Mathlib.Data.List.Forall2
import Mathlib.Data.List.Perm.Basic

/-!
# What one thread does

A history mixes what several threads do, in the order of their turns. Here it is taken
apart again: `Crew.doings` is what one of the threads did, in the same order, and it is a
part of the history (`Crew.doings_sublist`).

What a thread does depends on the others through the answers that it gets, and through
nothing else. So a thread comes with a relation of its own (`Thread.Does`): each action is
carried out on *some* system, and the thread goes on with the answer. A thread of a crew
that has ended did its doings in this sense (`Crew.does_of_ended?`), each of them on the
system as the whole crew had left it by then (`Crew.exists_moments`).

Whoever wants to know something of calls that others may interrupt argues about
`Thread.Does`: `Thread.Does.of_bind` takes a thread apart that goes on after another one.
-/

namespace Interception

variable {σ α β : Type}

/-! ### Threads that others may interrupt -/

/-- **A thread that does some things and then ends**, where anything else may happen in
between. -/
inductive Thread.Does : Thread σ α → List (Deed σ) → Except Fault α → Prop
  /-- It has ended. -/
  | done (result : α) : Does (.done result) [] (.ok result)
  /-- A fault has ended it. -/
  | aborted (fault : Fault) : Does (.aborted fault) [] (.error fault)
  /-- It carries out an action on the system that it finds. -/
  | act {action : Action σ} {next : action.Answer → Thread σ α} {deeds : List (Deed σ)}
      {ended : Except Fault α} (s : System σ)
      (h : Does (next (action.perform s).1) deeds ended) :
      Does (.act action next) (⟨s, action⟩ :: deeds) ended

namespace Thread.Does

variable {deeds : List (Deed σ)}

/-- **A thread that goes on after another one** does what that one does, and then the rest,
unless a fault ended it before. -/
theorem of_bind {t : Thread σ α} {f : α → Thread σ β} {ended : Except Fault β}
    (h : (t.bind f).Does deeds ended) :
    (∃ result first rest, t.Does first (.ok result) ∧ (f result).Does rest ended ∧
      deeds = first ++ rest) ∨
    ∃ fault, t.Does deeds (.error fault) ∧ ended = .error fault := by
  induction t generalizing deeds with
  | done result => exact .inl ⟨result, [], deeds, .done result, h, rfl⟩
  | aborted fault =>
    cases h
    exact .inr ⟨fault, .aborted fault, rfl⟩
  | act action next ih =>
    cases h with
    | act s h =>
      rcases ih _ h with ⟨result, first, rest, hfirst, hrest, rfl⟩ | ⟨fault, hfault, hended⟩
      · exact .inl ⟨result, ⟨s, action⟩ :: first, rest, .act s hfirst, hrest, rfl⟩
      · exact .inr ⟨fault, .act s hfault, hended⟩

/-- Changing the result of a thread changes nothing else. -/
theorem of_map {t : Thread σ α} {f : α → β} {ended : Except Fault β}
    (h : (t.map f).Does deeds ended) :
    ∃ before, t.Does deeds before ∧ ended = before.map f := by
  rcases of_bind h with ⟨result, first, rest, hfirst, hrest, rfl⟩ | ⟨fault, hfault, rfl⟩
  · cases hrest
    exact ⟨.ok result, by simpa using hfirst, rfl⟩
  · exact ⟨.error fault, hfault, rfl⟩

end Thread.Does

/-- How a thread has ended, if it has. -/
def Thread.ended? : Thread σ α → Option (Except Fault α)
  | .done result => some (.ok result)
  | .aborted fault => some (.error fault)
  | .act .. => none

/-- A thread that has ended does nothing more. -/
theorem Thread.does_nil_of_ended? {t : Thread σ α} {ended : Except Fault α}
    (h : t.ended? = some ended) : t.Does [] ended := by
  cases t with
  | done result =>
    obtain rfl := Option.some.inj h
    exact .done result
  | aborted fault =>
    obtain rfl := Option.some.inj h
    exact .aborted fault
  | act action next => cases h

/-! ### The thread of a crew -/

/-- Where two lists correspond, to some of the one there correspond some of the other. -/
theorem forall₂_exists_sublist {γ δ : Type} {R : γ → δ → Prop} {l : List γ}
    {l' part : List δ} (h : List.Forall₂ R l l') (hpart : part.Sublist l') :
    ∃ chosen, chosen.Sublist l ∧ List.Forall₂ R chosen part := by
  induction hpart generalizing l with
  | slnil =>
    cases h
    exact ⟨[], .slnil, .nil⟩
  | cons d hpart ih =>
    cases h with
    | cons hd hrest =>
      obtain ⟨chosen, hchosen, hpart⟩ := ih hrest
      exact ⟨chosen, hchosen.cons _, hpart⟩
  | cons_cons d hpart ih =>
    cases h with
    | cons hd hrest =>
      obtain ⟨chosen, hchosen, hpart⟩ := ih hrest
      exact ⟨_ :: chosen, hchosen.cons_cons _, .cons hd hpart⟩

namespace Crew

/-- How a thread has ended, if it has. -/
def ended? (crew : Crew σ α) (member : Nat) : Option (Except Fault α) :=
  (crew.threads[member]?).bind Thread.ended?

/-- **What one of the threads does**, when all of them take turns as a list says. -/
def doings (crew : Crew σ α) (member : Nat) : List Nat → List (Deed σ)
  | [] => []
  | turn :: turns =>
    (if turn = member then (crew.deed? turn).toList else []) ++ (crew.step turn).doings member turns

theorem threads_step_of_ne (crew : Crew σ α) {turn member : Nat} (h : turn ≠ member) :
    (crew.step turn).threads[member]? = crew.threads[member]? := by
  rw [step]
  split
  · exact List.getElem?_set_ne h
  · rfl

theorem threads_step_self (crew : Crew σ α) (member : Nat) :
    (crew.step member).threads[member]? =
      (crew.threads[member]?).map fun t => (t.step crew.system).1 := by
  rw [step]
  split
  · next t ht =>
    have hlt : member < crew.threads.length := (List.getElem?_eq_some_iff.mp ht).1
    rw [List.getElem?_set_self hlt, ht, Option.map_some]
  · next ht => rw [ht, Option.map_none]

/-- **A thread that has ended did its doings**, and nothing else. -/
theorem does_of_ended? {crew : Crew σ α} {member : Nat} {t : Thread σ α}
    {ended : Except Fault α} (ht : crew.threads[member]? = some t) (turns : List Nat)
    (h : (crew.follow turns).ended? member = some ended) :
    t.Does (crew.doings member turns) ended := by
  induction turns generalizing crew t with
  | nil => exact Thread.does_nil_of_ended? (by simpa [follow, ended?, ht] using h)
  | cons turn turns ih =>
    have hrest : ((crew.step turn).follow turns).ended? member = some ended := h
    rw [doings]
    split
    · next he =>
      subst he
      have hstep := crew.threads_step_self turn
      rw [ht, Option.map_some] at hstep
      have hdoes := ih hstep hrest
      -- only a thread that has not ended does something in its turn
      cases t with
      | done result => simpa [deed?, ht, Thread.step] using hdoes
      | aborted fault => simpa [deed?, ht, Thread.step] using hdoes
      | act action next => simpa [deed?, ht] using Thread.Does.act crew.system hdoes
    · next hne => exact ih ((crew.threads_step_of_ne hne).trans ht) hrest

/-- What one thread does is a part of what all of them do, in the same order. -/
theorem doings_sublist (crew : Crew σ α) (member : Nat) (turns : List Nat) :
    (crew.doings member turns).Sublist (crew.history turns) := by
  induction turns generalizing crew with
  | nil => exact .slnil
  | cons turn turns ih =>
    rw [doings, history]
    refine List.Sublist.append ?_ (ih _)
    split
    · exact .refl _
    · exact List.nil_sublist _

/-- **A deed that is done at a moment**: in a turn of the thread, on the system as all the turns
before have left it. -/
def DoneAt (crew : Crew σ α) (turns : List Nat) (member moment : Nat) (d : Deed σ) : Prop :=
  turns[moment]? = some member ∧ d.before = (crew.follow (turns.take moment)).system

/-- **The moments at which a thread does something**, one after the other. -/
theorem exists_moments (crew : Crew σ α) (member : Nat) (turns : List Nat) :
    ∃ moments : List Nat, moments.Pairwise (· < ·) ∧
      List.Forall₂ (crew.DoneAt turns member) moments (crew.doings member turns) := by
  induction turns generalizing crew with
  | nil => exact ⟨[], .nil, .nil⟩
  | cons turn turns ih =>
    obtain ⟨moments, hsorted, hmoments⟩ := ih (crew.step turn)
    -- what happens later happens one turn later than the rest of the list says
    have hlater : List.Forall₂ (crew.DoneAt (turn :: turns) member) (moments.map (· + 1))
        ((crew.step turn).doings member turns) := by
      rw [List.forall₂_map_left_iff]
      exact hmoments.imp fun moment d h => h
    have hsorted' : (moments.map (· + 1)).Pairwise (· < ·) :=
      hsorted.map _ fun _ _ h => Nat.succ_lt_succ h
    rw [doings]
    split
    · next he =>
      cases hd : crew.deed? turn with
      | none => exact ⟨moments.map (· + 1), hsorted', hlater⟩
      | some d =>
        have hnow : crew.DoneAt (turn :: turns) member 0 d :=
          ⟨congrArg some he, before_of_deed? hd⟩
        refine ⟨0 :: moments.map (· + 1), .cons ?_ hsorted', .cons hnow hlater⟩
        intro moment hmem
        obtain ⟨earlier, -, rfl⟩ := List.mem_map.mp hmem
        exact Nat.succ_pos earlier
    · exact ⟨moments.map (· + 1), hsorted', hlater⟩

/-- Whatever a thread does, it does at some moment. -/
theorem exists_doneAt {crew : Crew σ α} {member : Nat} {turns : List Nat} {d : Deed σ}
    (h : d ∈ crew.doings member turns) : ∃ moment, crew.DoneAt turns member moment d := by
  obtain ⟨moments, -, hmoments⟩ := crew.exists_moments member turns
  obtain ⟨chosen, -, hchosen⟩ := forall₂_exists_sublist hmoments (List.singleton_sublist.mpr h)
  cases hchosen with
  | cons hmoment hnil => exact ⟨_, hmoment⟩

theorem length_threads_step (crew : Crew σ α) (turn : Nat) :
    (crew.step turn).threads.length = crew.threads.length := by
  rw [step]
  split
  · exact List.length_set
  · rfl

/-- What is done in a turn is done by the thread whose turn it is. -/
theorem flatMap_turn (crew : Crew σ α) (turn : Nat) :
    ((List.range crew.threads.length).flatMap fun member =>
      if turn = member then (crew.deed? turn).toList else []) = (crew.deed? turn).toList := by
  have hrange (count : Nat) : ((List.range count).flatMap fun member =>
      if turn = member then (crew.deed? turn).toList else []) =
        if turn < count then (crew.deed? turn).toList else [] := by
    induction count with
    | zero => rfl
    | succ count ih =>
      rw [List.range_succ, List.flatMap_append, ih, List.flatMap_singleton]
      rcases Nat.lt_trichotomy turn count with hlt | rfl | hgt
      · simp [hlt, Nat.lt_succ_of_lt hlt, Nat.ne_of_lt hlt]
      · simp
      · simp [Nat.not_lt.mpr (Nat.le_of_lt hgt), Nat.ne_of_gt hgt, Nat.not_lt.mpr hgt]
  rw [hrange]
  split
  · rfl
  · next hge =>
    have hnone : crew.threads[turn]? = none := List.getElem?_eq_none (Nat.not_lt.mp hge)
    rw [deed?, hnone]
    rfl

/-- **Whatever is done is done by one of the threads.** -/
theorem history_perm (crew : Crew σ α) (turns : List Nat) :
    (crew.history turns).Perm
      ((List.range crew.threads.length).flatMap fun member => crew.doings member turns) := by
  induction turns generalizing crew with
  | nil => simp [history, doings]
  | cons turn turns ih =>
    have hrest := ih (crew.step turn)
    rw [length_threads_step] at hrest
    rw [history]
    refine (hrest.append_left _).trans ?_
    rw [← flatMap_turn]
    exact List.flatMap_append_perm ..

/-- What is done in some turns and then in some more. -/
theorem history_append (crew : Crew σ α) (turns more : List Nat) :
    crew.history (turns ++ more) = crew.history turns ++ (crew.follow turns).history more := by
  induction turns generalizing crew with
  | nil => rfl
  | cons turn turns ih =>
    rw [List.cons_append, history, history, ih, List.append_assoc]
    rfl

/-- What was done by an earlier moment has been done. -/
theorem history_take_subset (crew : Crew σ α) (turns : List Nat) (moment : Nat) :
    crew.history (turns.take moment) ⊆ crew.history turns := by
  intro d hd
  rw [← List.take_append_drop moment turns, history_append]
  exact List.mem_append_left _ hd

theorem history_take_mono (crew : Crew σ α) (turns : List Nat) {moment later : Nat}
    (h : moment ≤ later) :
    crew.history (turns.take moment) ⊆ crew.history (turns.take later) := by
  have hsub := crew.history_take_subset (turns.take later) moment
  rwa [List.take_take, Nat.min_eq_left h] at hsub

theorem length_threads_follow (crew : Crew σ α) (turns : List Nat) :
    (crew.follow turns).threads.length = crew.threads.length := by
  induction turns generalizing crew with
  | nil => rfl
  | cons turn turns ih => exact (ih (crew.step turn)).trans (crew.length_threads_step turn)

theorem exists_ended_replicate {crew : Crew σ α} {member : Nat} {t : Thread σ α}
    (ht : crew.threads[member]? = some t) :
    ∃ count ended, (crew.follow (List.replicate count member)).ended? member = some ended := by
  induction t generalizing crew with
  | done result => exact ⟨0, .ok result, by simp [follow, ended?, ht, Thread.ended?]⟩
  | aborted fault => exact ⟨0, .error fault, by simp [follow, ended?, ht, Thread.ended?]⟩
  | act action next ih =>
    have hstep := crew.threads_step_self member
    rw [ht, Option.map_some] at hstep
    obtain ⟨count, ended, hended⟩ := ih _ hstep
    exact ⟨count + 1, ended, hended⟩

/-- **Every thread comes to its end** if it is given enough further turns. -/
theorem exists_ended (crew : Crew σ α) (turns : List Nat) {member : Nat}
    (h : member < crew.threads.length) :
    ∃ count ended,
      (crew.follow (turns ++ List.replicate count member)).ended? member = some ended := by
  rw [← crew.length_threads_follow turns] at h
  obtain ⟨count, ended, hended⟩ := exists_ended_replicate (List.getElem?_eq_getElem h)
  have hfollow : crew.follow (turns ++ List.replicate count member) =
      (crew.follow turns).follow (List.replicate count member) := List.foldl_append
  exact ⟨count, ended, hfollow ▸ hended⟩

end Crew

end Interception
