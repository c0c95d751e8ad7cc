import Interception.Demonstration
import Interception.Proofs.Base
import Mathlib.Data.List.Find
import Mathlib.Data.List.Nodup

/-!
# Setting up

Between a configuration file and the first call lie three steps, each of which can refuse:
the configuration has to be valid, a collector has to be made, and an interceptor has to be
installed on every target. Once the first step accepts a configuration, the second always
succeeds, and the third can fail for one reason only (`Interception.setUp_of_accepted`): a
target that the sample type does not have.

What joins the steps is that the configuration and the table mean the same by "the same
operation". A valid configuration has no target twice (`Config.validate_eq_none_iff`), so by the
time a target is looked up nobody owns its operation: the interceptors installed so far are for
other targets.

| step | what it comes to |
|---|---|
| one target | `System.timeEach_cons` |
| all targets | `System.timeEach_cases` |
| all targets, on operations that nobody owns | `System.timeEach_of_unowned` |
| what the system has become | `System.Timed` |
-/

namespace Interception

/-! ### Valid configurations -/

namespace Config

theorem targetOffence?_eq_none_iff {before targets : List Key} :
    targetOffence? before targets = none ↔
      (∀ target ∈ targets, target.typeName ≠ "" ∧ target.operation ≠ "") ∧
        targets.Nodup ∧ ∀ target ∈ targets, target ∉ before := by
  induction targets generalizing before with
  | nil => simp [targetOffence?]
  | cons target rest ih =>
    rw [targetOffence?]
    by_cases hname : target.typeName = "" ∨ target.operation = ""
    · rw [if_pos hname]
      refine iff_of_false (by simp) ?_
      rintro ⟨hnames, -⟩
      obtain ⟨htype, hoperation⟩ := hnames target List.mem_cons_self
      exact hname.elim htype hoperation
    rw [if_neg hname]
    by_cases hbefore : target ∈ before
    · rw [if_pos hbefore]
      refine iff_of_false (by simp) ?_
      rintro ⟨-, -, hnew⟩
      exact hnew target List.mem_cons_self hbefore
    rw [if_neg hbefore, ih]
    rw [not_or] at hname
    -- a later target may be neither among those before nor the one just passed
    have hsplit : (∀ other ∈ rest, other ∉ target :: before) ↔
        target ∉ rest ∧ ∀ other ∈ rest, other ∉ before := by
      constructor
      · intro h
        refine ⟨fun hmem => h target hmem List.mem_cons_self, fun other hother hmem => ?_⟩
        exact h other hother (List.mem_cons_of_mem _ hmem)
      · rintro ⟨hnot, h⟩ other hother hmem
        rcases List.mem_cons.mp hmem with rfl | hmem
        · exact hnot hother
        · exact h other hother hmem
    rw [List.forall_mem_cons, List.forall_mem_cons, List.nodup_cons, hsplit]
    have hname' : target.typeName ≠ "" ∧ target.operation ≠ "" := hname
    tauto

/-- **What makes a configuration valid**: the collector has room, the targets have names, and
none of them comes twice. -/
theorem validate_eq_none_iff {config : Config} :
    config.validate = none ↔
      0 < config.collectorCapacity ∧
        (∀ target ∈ config.targets, target.typeName ≠ "" ∧ target.operation ≠ "") ∧
          config.targets.Nodup := by
  rw [validate]
  by_cases hroom : config.collectorCapacity = 0
  · simp [hroom]
  · rw [if_neg hroom, targetOffence?_eq_none_iff]
    simp [Nat.pos_of_ne_zero hroom]

/-- **A text that is accepted** spells a valid configuration. -/
theorem validate_of_readToml {text : String} {config : Config} (h : readToml text = .ok config) :
    config.validate = none := by
  rw [readToml] at h
  split at h
  · cases h
  · split at h
    · cases h
    · next hvalidate =>
      obtain rfl := Except.ok.inj h
      exact hvalidate

end Config

namespace Demonstration

theorem targets_configured (options : Options) (config : Config) :
    (configured options config).targets =
      if config.targets = [] then Calculator.operations else config.targets := by
  cases h : config.targets with
  | nil => simp [configured, h]
  | cons target rest => simp [configured, h]

/-- **Whatever the options add, there is something to time.** -/
theorem targets_configured_ne_nil (options : Options) (config : Config) :
    (configured options config).targets ≠ [] := by
  rw [targets_configured]
  split
  · simp [Calculator.operations]
  · next h => exact h

/-- **Whatever the options add, a valid configuration stays valid.** -/
theorem validate_configured {config : Config} (h : config.validate = none) (options : Options) :
    (configured options config).validate = none := by
  obtain ⟨hroom, hnames, hnodup⟩ := Config.validate_eq_none_iff.mp h
  rw [Config.validate_eq_none_iff, targets_configured]
  refine ⟨hroom, ?_⟩
  split
  · exact ⟨by decide, by decide⟩
  · exact ⟨hnames, hnodup⟩

end Demonstration

/-! ### What can be taken over -/

namespace Table

variable {σ : Type} {table table' : Table σ} {owner : Handle} {before targets : List Key}
  {target : Key} {error : CallError}

/-- **Operations that can be taken over together**, each by an interceptor of its own. -/
structure Available (table : Table σ) (targets : List Key) : Prop where
  /-- They are defined. -/
  defined : ∀ target ∈ targets, (table.find? target).isSome
  /-- Nobody owns them. -/
  unowned : ∀ target ∈ targets, table.owner? target = none
  /-- None of them comes twice. -/
  distinct : targets.Nodup

/-- **Why an operation cannot be taken over** once those before it are. -/
inductive Refuses (table : Table σ) (before : List Key) (target : Key) : CallError → Prop
  /-- It is not defined. -/
  | undefined (h : table.find? target = none) : Refuses table before target (.targetNotFound target)
  /-- Somebody owned it all along. -/
  | owned {owner : Handle} (h : table.owner? target = some owner) :
      Refuses table before target (.targetAlreadyIntercepted target)
  /-- It is among those before it. -/
  | again (h : target ∈ before) : Refuses table before target (.targetAlreadyIntercepted target)

theorem Available.nil : table.Available [] :=
  ⟨by simp, by simp, List.nodup_nil⟩

theorem Available.find?_eq_none (h : table.Available targets) :
    (targets.find? fun target => (table.find? target).isNone) = none := by
  refine List.find?_eq_none.mpr fun target hmem => ?_
  simp [Option.isSome_iff_ne_none.mp (h.defined target hmem)]

/-- Interceptors for the targets that are left are for other operations. -/
theorem Available.key_ne (h : table.Available (target :: targets)) {handles : List Handle}
    (hkeys : handles.map Handle.key = targets) : ∀ handle ∈ handles, handle.key ≠ target := by
  rintro handle hhandle rfl
  exact (List.nodup_cons.mp h.distinct).1 (hkeys ▸ List.mem_map_of_mem hhandle)

/-- What can be taken over after an operation was, could be taken over together with it. -/
theorem Available.of_intercept (h : table.intercept owner = .ok table')
    (hrest : table'.Available targets) : table.Available (owner.key :: targets) := by
  obtain ⟨slot, hfind, hslot, rfl⟩ := intercept_eq_ok_iff.mp h
  have hne : ∀ other ∈ targets, other ≠ owner.key := by
    rintro other hother rfl
    have hunowned := hrest.unowned _ hother
    simp [owner?_put] at hunowned
  refine ⟨?_, ?_, ?_⟩
  · refine List.forall_mem_cons.mpr ⟨by simp [hfind], fun other hother => ?_⟩
    have hdefined := hrest.defined other hother
    rwa [Directory.find?_put, if_neg (hne other hother)] at hdefined
  · refine List.forall_mem_cons.mpr ⟨by simp [owner?, hfind, hslot], fun other hother => ?_⟩
    have hunowned := hrest.unowned other hother
    rwa [owner?_put, if_neg (hne other hother)] at hunowned
  · exact List.nodup_cons.mpr ⟨fun hmem => hne _ hmem rfl, hrest.distinct⟩

/-- What cannot be taken over once an operation and then some others are, cannot once all of
these are. -/
theorem Refuses.of_intercept (h : table.intercept owner = .ok table')
    (hrest : table'.Refuses before target error) :
    table.Refuses (owner.key :: before) target error := by
  obtain ⟨slot, -, -, rfl⟩ := intercept_eq_ok_iff.mp h
  cases hrest with
  | undefined hfind =>
    rw [Directory.find?_put] at hfind
    split at hfind
    · cases hfind
    · exact .undefined hfind
  | owned howner =>
    rw [owner?_put] at howner
    split at howner
    · next he => exact .again (he ▸ List.mem_cons_self)
    · exact .owned howner
  | again hmem => exact .again (List.mem_cons_of_mem _ hmem)

/-- An interceptor that owns nothing is refused for one of these reasons. -/
theorem Refuses.of_intercept_eq_error (h : table.intercept owner = .error error)
    (hnew : table.owner? owner.key ≠ some owner) : table.Refuses [] owner.key error := by
  cases intercept_eq_error_iff.mp h with
  | undefined hundefined => exact .undefined (by simpa [Directory.contains] using hundefined)
  | own howner => exact absurd howner hnew
  | foreign howner hne => exact .owned howner

/-- Of operations that can be taken over together, none is refused. -/
theorem Refuses.not_available (h : table.Refuses before target error) (after : List Key) :
    ¬table.Available (before ++ target :: after) := by
  intro havailable
  have hmem : target ∈ before ++ target :: after := by simp
  cases h with
  | undefined hfind => simpa [hfind] using havailable.defined target hmem
  | owned howner => simpa [howner] using havailable.unowned target hmem
  | again hold =>
    exact (List.nodup_append.mp havailable.distinct).2.2 target hold target List.mem_cons_self rfl

end Table

/-! ### Timing one target -/

/-- **An interceptor that times an operation**: its one hook hands records to a collector. -/
def Interceptor.timing {σ : Type} (enabled : Bool) (collector : CollectorId) (key : Key) :
    Interceptor σ :=
  { key, enabled, hooks := ⟨none, none, some (.collect collector)⟩, live := true }

namespace System

variable {σ : Type}

/-- Changing the interceptor that was created last. -/
theorem adjustInterceptor_append (s : System σ) {before : List (Interceptor σ)}
    {i : Interceptor σ} (hs : s.interceptors = before ++ [i]) (hlive : i.live = true)
    (f : Interceptor σ → Interceptor σ) :
    s.adjustInterceptor ⟨before.length, i.key⟩ f = { s with interceptors := before ++ [f i] } := by
  have hfind : s.interceptor? ⟨before.length, i.key⟩ = some i := by
    simp [interceptor?, hs, hlive]
  rw [adjustInterceptor, hfind]
  simp [hs]

/-- The system with one more interceptor that times an operation, not yet installed. -/
def withTiming (s : System σ) (enabled : Bool) (collector : CollectorId) (key : Key) : System σ :=
  { s with interceptors := s.interceptors ++ [.timing enabled collector key] }

/-- The system with one more interceptor that times an operation and has taken it over. -/
def withTimed (s : System σ) (enabled : Bool) (collector : CollectorId) (key : Key)
    (table : Table σ) : System σ :=
  { s.withTiming enabled collector key with table }.note (.installed key)

theorem withTimed_table_length (s : System σ) (enabled : Bool) (collector : CollectorId) (key : Key)
    (table : Table σ) :
    (s.withTimed enabled collector key table).table = table ∧
      (s.withTimed enabled collector key table).interceptors.length =
        s.interceptors.length + 1 := by
  simp [withTimed, withTiming, note]

/-- Creating an interceptor and giving it its flag and its hook. -/
theorem create_setEnabled_collect (s : System σ) (enabled : Bool) (collector : CollectorId)
    (key : Key) :
    ((s.create key).2.setEnabled (s.create key).1 enabled).collect (s.create key).1 collector =
      s.withTiming enabled collector key := by
  have hfirst : (s.create key).2.setEnabled (s.create key).1 enabled =
      { s with interceptors := s.interceptors ++ [{ Interceptor.fresh key with enabled }] } :=
    adjustInterceptor_append (s.create key).2 rfl rfl _
  rw [hfirst]
  exact adjustInterceptor_append { s with interceptors := _ }
    (i := { Interceptor.fresh key with enabled }) rfl rfl _

/-- An interceptor that was just created may be installed: only the table decides. -/
theorem install_withTiming (s : System σ) (enabled : Bool) (collector : CollectorId) (key : Key) :
    (s.withTiming enabled collector key).install ⟨s.interceptors.length, key⟩ =
      match s.table.intercept ⟨s.interceptors.length, key⟩ with
      | .ok table => (.ok (), s.withTimed enabled collector key table)
      | .error error => (.error error, s.withTiming enabled collector key) := by
  have hlive : ((s.withTiming enabled collector key).interceptor?
      ⟨s.interceptors.length, key⟩).isSome = true := by
    simp [interceptor?, withTiming, Interceptor.timing]
  rw [install, if_pos hlive]
  rfl

/-- **Timing one target and then the others.** If its operation cannot be taken over, all
interceptors are given up. -/
theorem timeEach_cons (config : Config) (collector : CollectorId) (target : Key)
    (rest : List Key) (installed : List Handle) (s : System σ) :
    timeEach config collector (target :: rest) installed s =
      match s.table.intercept ⟨s.interceptors.length, target⟩ with
      | .ok table =>
        timeEach config collector rest (installed ++ [⟨s.interceptors.length, target⟩])
          (s.withTimed config.enabledByDefault collector target table)
      | .error error =>
        (.error error, ((s.withTiming config.enabledByDefault collector target).drop
          ⟨s.interceptors.length, target⟩).dropAll installed) := by
  rw [timeEach]
  have hready := s.create_setEnabled_collect config.enabledByDefault collector target
  have hcreate : (s.create target).1 = ⟨s.interceptors.length, target⟩ := rfl
  dsimp only
  rw [hready, hcreate, install_withTiming]
  cases s.table.intercept ⟨s.interceptors.length, target⟩ with
  | ok table => rfl
  | error error => rfl

/-! ### Timing all targets -/

/-- **A system in which some more operations are timed**, each by an interceptor of its own. -/
structure Timed (enabled : Bool) (collector : CollectorId) (s : System σ) (handles : List Handle)
    (s' : System σ) : Prop where
  /-- Each of the interceptors owns its operation, around what stood there. -/
  owned : ∀ handle ∈ handles, s'.table.find? handle.key =
    (s.table.find? handle.key).map (Slot.interceptedBy handle)
  /-- Other operations are as before. -/
  others : ∀ key, (∀ handle ∈ handles, handle.key ≠ key) → s'.table.find? key = s.table.find? key
  /-- Each of the interceptors times its operation. -/
  timing : ∀ handle ∈ handles,
    s'.interceptors[handle.number]? = some (.timing enabled collector handle.key)
  /-- All interceptors that there were are as before. -/
  interceptors_prefix : s.interceptors <+: s'.interceptors
  /-- The collectors are as before. -/
  collectors_eq : s'.collectors = s.collectors

namespace Timed

variable {enabled : Bool} {collector : CollectorId} {s s' s'' : System σ} {handles : List Handle}

theorem refl : Timed enabled collector s [] s :=
  ⟨by simp, fun _ _ => rfl, by simp, List.prefix_rfl, rfl⟩

theorem nil {event : Event} : Timed enabled collector s [] (s.note event) :=
  ⟨by simp, fun _ _ => rfl, by simp, List.prefix_rfl, rfl⟩

/-- One interceptor that times an operation that nobody owns. -/
theorem one {key : Key} {table : Table σ}
    (h : s.table.intercept ⟨s.interceptors.length, key⟩ = .ok table) :
    Timed enabled collector s [⟨s.interceptors.length, key⟩]
      (s.withTimed enabled collector key table) := by
  obtain ⟨slot, hfind, -, rfl⟩ := Table.intercept_eq_ok_iff.mp h
  refine ⟨?_, ?_, ?_, List.prefix_append _ _, rfl⟩
  · intro handle hhandle
    obtain rfl := List.mem_singleton.mp hhandle
    simp [withTimed, note, Directory.find?_put, hfind]
  · intro other hother
    have hne : other ≠ key := Ne.symm (hother _ (List.mem_singleton.mpr rfl))
    simp [withTimed, note, withTiming, Directory.find?_put, hne]
  · intro handle hhandle
    obtain rfl := List.mem_singleton.mp hhandle
    simp [withTimed, note, withTiming]

/-- Timing some operations and then others. -/
theorem cons {handle : Handle} (h : Timed enabled collector s [handle] s')
    (hrest : Timed enabled collector s' handles s'')
    (hne : ∀ other ∈ handles, other.key ≠ handle.key) :
    Timed enabled collector s (handle :: handles) s'' := by
  refine ⟨?_, ?_, ?_, h.interceptors_prefix.trans hrest.interceptors_prefix,
    hrest.collectors_eq.trans h.collectors_eq⟩
  · intro other hother
    rcases List.mem_cons.mp hother with rfl | hother
    · rw [hrest.others _ hne]
      exact h.owned _ (List.mem_singleton.mpr rfl)
    · rw [hrest.owned other hother, h.others]
      intro first hfirst
      rw [List.mem_singleton.mp hfirst]
      exact Ne.symm (hne other hother)
  · intro key hkey
    obtain ⟨hfirst, hkeys⟩ := List.forall_mem_cons.mp hkey
    rw [hrest.others key hkeys]
    exact h.others key fun first hmem => List.mem_singleton.mp hmem ▸ hfirst
  · intro other hother
    rcases List.mem_cons.mp hother with rfl | hother
    · have hnow := h.timing _ (List.mem_singleton.mpr rfl)
      obtain ⟨hlt, -⟩ := List.getElem?_eq_some_iff.mp hnow
      obtain ⟨more, hmore⟩ := hrest.interceptors_prefix
      rw [← hmore, List.getElem?_append_left hlt, hnow]
    · exact hrest.timing other hother

end Timed

/-- **Timing targets either succeeds with all of them or stops at the first that is refused.** In
the first case the targets can be taken over together, and each is timed. In the second case those
before it are timed at that moment, and then everything is given up. Either way the interceptors
are new ones. -/
theorem timeEach_cases (config : Config) (collector : CollectorId) (targets : List Key)
    (installed : List Handle) (s : System σ)
    (hnumber : ∀ target ∈ targets, ∀ owner, s.table.owner? target = some owner →
      owner.number < s.interceptors.length) :
    (∃ handles s',
      timeEach config collector targets installed s = (.ok (installed ++ handles), s') ∧
        handles.map Handle.key = targets ∧ s.table.Available targets ∧
          Timed config.enabledByDefault collector s handles s' ∧
            ∀ handle ∈ handles, s.interceptors.length ≤ handle.number) ∨
    ∃ before target after error handles s', targets = before ++ target :: after ∧
      handles.map Handle.key = before ∧ s.table.Available before ∧
        s.table.Refuses before target error ∧
          Timed config.enabledByDefault collector s handles s' ∧
            (∀ handle ∈ handles, s.interceptors.length ≤ handle.number) ∧
              timeEach config collector targets installed s =
                (.error error, ((s'.withTiming config.enabledByDefault collector target).drop
                  ⟨s'.interceptors.length, target⟩).dropAll (installed ++ handles)) := by
  induction targets generalizing installed s with
  | nil => exact .inl ⟨[], _, by rw [timeEach, List.append_nil], rfl, .nil, .nil, by simp⟩
  | cons target rest ih =>
    obtain ⟨htarget, hothers⟩ := List.forall_mem_cons.mp hnumber
    rw [timeEach_cons]
    cases hintercept : s.table.intercept ⟨s.interceptors.length, target⟩ with
    | error error =>
      have hrefuses : s.table.Refuses [] target error := by
        refine .of_intercept_eq_error hintercept fun ho => ?_
        exact (htarget _ ho).ne rfl
      exact .inr ⟨[], target, rest, error, [], s, rfl, rfl, .nil, hrefuses, .refl, by simp, by simp⟩
    | ok table =>
      dsimp only
      have hone : Timed config.enabledByDefault collector s [⟨s.interceptors.length, target⟩]
          (s.withTimed config.enabledByDefault collector target table) := .one hintercept
      obtain ⟨htable, hlength⟩ :=
        s.withTimed_table_length config.enabledByDefault collector target table
      generalize s.withTimed config.enabledByDefault collector target table = next at *
      obtain rfl := htable
      -- the owners that the others find are the one just installed and those from before
      have hnext : ∀ other ∈ rest, ∀ owner, next.table.owner? other = some owner →
          owner.number < next.interceptors.length := by
        intro other hother owner ho
        rcases Table.owner?_of_intercept hintercept ho with rfl | hold
        · exact hlength ▸ Nat.lt_succ_self _
        · have hlt := hothers other hother owner hold
          omega
      have hmore : ∀ {handles : List Handle},
          (∀ handle ∈ handles, next.interceptors.length ≤ handle.number) →
          ∀ handle ∈ ⟨s.interceptors.length, target⟩ :: handles,
            s.interceptors.length ≤ handle.number := by
        intro handles h
        refine List.forall_mem_cons.mpr ⟨le_rfl, fun handle hhandle => ?_⟩
        have hle := h handle hhandle
        omega
      rcases ih (installed ++ [⟨s.interceptors.length, target⟩]) next hnext with
        ⟨handles, s', hrun, hkeys, hall, htimed, hnew⟩ |
        ⟨before, refused, after, error, handles, s', rfl, hkeys, hall, hrefuses, htimed, hnew, hrun⟩
      · have havailable := hall.of_intercept hintercept
        refine .inl ⟨⟨s.interceptors.length, target⟩ :: handles, s', ?_,
          congrArg (List.cons target) hkeys, havailable,
          hone.cons htimed (havailable.key_ne hkeys), hmore hnew⟩
        rw [hrun, List.append_assoc, List.singleton_append]
      · have havailable := hall.of_intercept hintercept
        refine .inr ⟨target :: before, refused, after, error,
          ⟨s.interceptors.length, target⟩ :: handles, s', rfl, congrArg (List.cons target) hkeys,
          havailable, hrefuses.of_intercept hintercept,
          hone.cons htimed (havailable.key_ne hkeys), hmore hnew, ?_⟩
        rw [hrun, List.append_assoc, List.singleton_append]

/-- **Timing targets that nobody owns**, each of them once: it fails with the first target that
is not defined, and otherwise every target is timed. -/
theorem timeEach_of_unowned (config : Config) (collector : CollectorId) {targets : List Key}
    (hnodup : targets.Nodup) (installed : List Handle) (s : System σ)
    (hunowned : ∀ target ∈ targets, s.table.owner? target = none) :
    match targets.find? fun target => (s.table.find? target).isNone with
    | some target =>
      (timeEach config collector targets installed s).1 = .error (.targetNotFound target)
    | none =>
      ∃ handles s',
        timeEach config collector targets installed s = (.ok (installed ++ handles), s') ∧
          handles.map Handle.key = targets ∧
            Timed config.enabledByDefault collector s handles s' := by
  have hcases := timeEach_cases config collector targets installed s fun target hmem owner ho => by
    rw [hunowned target hmem] at ho
    cases ho
  rcases hcases with ⟨handles, s', hrun, hkeys, hall, htimed, -⟩ |
    ⟨before, target, after, error, handles, s', rfl, -, hall, hrefuses, -, -, hrun⟩
  · rw [hall.find?_eq_none]
    exact ⟨handles, s', hrun, hkeys, htimed⟩
  · have hmem : target ∈ before ++ target :: after := by simp
    cases hrefuses with
    | undefined hfind => simp [List.find?_append, hall.find?_eq_none, hfind, hrun]
    | owned howner =>
      rw [hunowned target hmem] at howner
      cases howner
    | again hold =>
      have hapart := (List.nodup_append.mp hnodup).2.2
      exact absurd rfl (hapart target hold target List.mem_cons_self)

end System

/-! ### The sample type -/

namespace Calculator

variable {σ : Type}

/-- The table in which the operations of the sample type are defined and nothing else is. -/
def table : Table σ :=
  ((Directory.empty.put computeKey (.free (.plain compute))).put describeKey
    (.free (.plain describe))).put fibonacciKey (.free (.plain fibonacci))

/-- The system in which the sample type has just been defined. -/
def defined (clock : Clock) (memory : σ) : System σ :=
  { System.start clock memory with
    table
    journal := #[.defined computeKey, .defined describeKey, .defined fibonacciKey] }

/-- **Defining the sample type**, on a system with nothing in it, succeeds. -/
theorem execute_define (clock : Clock) (memory : σ) :
    (System.start clock memory).execute Demonstration.depth define =
      (.ok (.ok .null), defined clock memory) := by
  rfl

theorem find?_table (key : Key) :
    (table : Table σ).find? key =
      if key = fibonacciKey then some (.free (.plain fibonacci))
      else if key = describeKey then some (.free (.plain describe))
      else if key = computeKey then some (.free (.plain compute))
      else none := by
  rw [table, Directory.find?_put, Directory.find?_put, Directory.find?_put, Directory.find?_empty]

theorem isNone_find?_table (key : Key) :
    ((table : Table σ).find? key).isNone = decide (key ∉ operations) := by
  rw [find?_table]
  split_ifs with hf hd hc
  · simp [hf, operations]
  · simp [hd, operations]
  · simp [hc, operations]
  · simp [hf, hd, hc, operations]

theorem owner?_table (key : Key) : (table : Table σ).owner? key = none := by
  rw [Table.owner?, find?_table]
  split_ifs
  · rfl
  · rfl
  · rfl
  · rfl

end Calculator

/-! ### From a configuration to interceptors -/

/-- **Once a configuration is accepted, one thing can go wrong.** Take any text that is accepted as
a configuration, and any options that name a file with it. Then the configuration that the options
make of it is valid and has a target, whatever the options; a collector can be made from it; and
timing its targets where the sample type has just been defined fails exactly if some target is none
of the operations of the sample type, level included. The error then says that the first such
target was not found. -/
theorem setUp_of_accepted {text : String} {config : Config}
    (haccepted : Config.readToml text = .ok config) {options : Options} {path : String}
    {file : String → Option ByteArray} (hthreads : 0 < options.threads)
    (hpath : options.config = some path) (hfile : file path = some text.toUTF8) (clock : Clock) :
    let settled := Demonstration.configured options config
    Demonstration.settle? options file = .ok settled ∧
      settled.validate = none ∧ settled.targets ≠ [] ∧
        (System.start clock ()).execute Demonstration.depth Calculator.define =
            (.ok (.ok .null), Calculator.defined clock ()) ∧
          ∃ collector s,
            (Calculator.defined clock ()).createCollector settled.collectorCapacity
                settled.threshold? settled.captureArguments = (some collector, s) ∧
              let answer := (s.timeTargets settled collector).1
              ((∃ error, answer = .error error) ↔
                  ∃ target ∈ settled.targets, target ∉ Calculator.operations) ∧
                ∀ error, answer = .error error →
                  ∃ target, settled.targets.find? (fun target =>
                      decide (target ∉ Calculator.operations)) = some target ∧
                    error = .targetNotFound target := by
  intro settled
  have hvalid : config.validate = none := Config.validate_of_readToml haccepted
  have hsettle : Demonstration.settle? options file = .ok settled := by
    have htext : String.fromUTF8? text.toUTF8 = some text := dif_pos text.isValidUTF8
    have hload : Config.load path (file path) = .ok config := by
      rw [Config.load, hfile, Option.bind_some, htext]
      exact haccepted
    rw [Demonstration.settle?, if_neg (Nat.ne_of_gt hthreads), hpath]
    dsimp only
    rw [hload]
  have hsettled : settled.validate = none := Demonstration.validate_configured hvalid options
  obtain ⟨hroom, -, hnodup⟩ := Config.validate_eq_none_iff.mp hsettled
  obtain ⟨c, hc⟩ : ∃ c, Collector.new? settled.collectorCapacity settled.threshold?
      settled.captureArguments = some c := ⟨_, dif_pos hroom⟩
  refine ⟨hsettle, hsettled, Demonstration.targets_configured_ne_nil options config,
    Calculator.execute_define clock (), 0, { Calculator.defined clock () with collectors := [c] },
    ?_, ?_⟩
  · rw [System.createCollector, hc]
    rfl
  intro answer
  have htimed := System.timeEach_of_unowned settled 0 hnodup []
    { Calculator.defined clock () with collectors := [c] } fun target _ =>
      Calculator.owner?_table target
  have hundefined : (fun target => ((Calculator.defined clock ()).table.find? target).isNone) =
      fun target => decide (target ∉ Calculator.operations) :=
    funext Calculator.isNone_find?_table
  dsimp only at htimed
  rw [hundefined] at htimed
  split at htimed
  -- some target is not defined
  · next target hfind =>
    have hmem := List.mem_of_find?_eq_some hfind
    have hnot : target ∉ Calculator.operations := by simpa using List.find?_some hfind
    have hanswer : answer = .error (.targetNotFound target) := htimed
    refine ⟨iff_of_true ⟨_, hanswer⟩ ⟨target, hmem, hnot⟩, fun error herror => ?_⟩
    rw [hanswer] at herror
    exact ⟨target, hfind, (Except.error.inj herror).symm⟩
  -- all targets are
  · next hfind =>
    obtain ⟨handles, s', hok, -, -⟩ := htimed
    have hanswer : answer = .ok handles := congrArg Prod.fst hok
    have hall : ∀ target ∈ settled.targets, target ∈ Calculator.operations := by
      simpa using List.find?_eq_none.mp hfind
    refine ⟨iff_of_false ?_ ?_, fun error herror => ?_⟩
    · rintro ⟨error, herror⟩
      rw [hanswer] at herror
      cases herror
    · rintro ⟨target, hmem, hnot⟩
      exact hnot (hall target hmem)
    · rw [hanswer] at herror
      cases herror

namespace Misplaced

/-- A file with one target, on the wrong level: the sample type computes on instances. -/
def text : String :=
  "[[target]]\ntype_name = \"Calculator\"\noperation = \"compute\"\nkind = \"type\"\n"

/-- The target of the file. -/
def target : Key :=
  .ofType Calculator.typeName "compute"

/-- The configuration in the file. -/
def config : Config :=
  Config.standard.withTarget target

/-- Options that name the file and disable the interceptors. -/
def options : Options :=
  { iterations := 1, threads := 1, config := some "file", format := .text, records := false
    captureArguments := false, disable := true, debug := false }

/-- The file is accepted, and the target is not found. -/
theorem setUp_of_text :
    Config.readToml text = .ok config ∧ 0 < options.threads ∧ options.config = some "file" ∧
      ∃ (collector : CollectorId) (s : System Unit),
        (s.timeTargets (Demonstration.configured options config) collector).1 =
          .error (.targetNotFound target) := by
  have haccepted : Config.readToml text = .ok config := by decide +kernel
  obtain ⟨-, -, -, -, collector, s, -, hfails, hwhich⟩ :=
    @setUp_of_accepted text config haccepted options "file" (fun _ => some text.toUTF8)
      (by decide) rfl rfl fun _ => .atEpoch
  obtain ⟨error, herror⟩ := hfails.mpr ⟨target, by decide, by decide⟩
  obtain ⟨found, hfound, rfl⟩ := hwhich error herror
  have htarget : some target = some found := Eq.trans (by decide) hfound
  obtain rfl := Option.some.inj htarget
  exact ⟨haccepted, by decide, rfl, collector, s, herror⟩

end Misplaced

end Interception
