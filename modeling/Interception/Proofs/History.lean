import Interception.Crew
import Interception.Proofs.Base
import Mathlib.Logic.Basic

/-!
# Histories

A *history* is what has been done so far, action by action: a list of `Deed`s. Each
deed keeps the system that it was done to, and so also what it answered. Threads that
take turns make a history (`Crew.history`), and every moment of every course of events
– in the middle of calls too – is the end of one.

A history says by itself what the base of an operation is (`History.base?`): the
implementation that somebody last gave the operation, unless the table has been emptied
since. Nothing in this looks at a table. The main statement,
`Interception.slot_of_history`, compares it with the slot that is found there.

All that a deed can do to the table is listed in `Table.Change`, and `Deed.change` is
where the requests are gone through one by one; every later statement about bases
argues by the three cases of that list.
-/

namespace Interception

variable {σ α : Type}

/-! ### Deeds -/

/-- **Something that was done**: an action, and the system that it was done to. -/
structure Deed (σ : Type) where
  /-- The system before. -/
  before : System σ
  /-- The action. -/
  action : Action σ

/-- The implementation that a request gave an operation, if that is what was asked for
and the answer was not a refusal. -/
def Request.given? (s : System σ) : (r : Request) → (r.Body → Program σ) → r.Answer →
    Option (Key × Implementation σ)
  | .define key, bodies, .ok _ => some (key, .plain (bodies ()))
  | .defineKept key kept, _, .ok _ => some (key, s.keptImplementation kept)
  | .exchange key, bodies, .ok _ => some (key, .plain (bodies ()))
  | .exchangeKept key kept, _, .ok _ => some (key, s.keptImplementation kept)
  | _, _, _ => none

/-- Whether a request empties the table. -/
def Request.empties : Request → Bool
  | .reset => true
  | _ => false

/-- **What a request settles about the base of an operation**, if anything: an
implementation, where the request gave the operation one, and none, where it emptied the
table. -/
def Request.settles? (r : Request) (bodies : r.Body → Program σ) (s : System σ) (key : Key) :
    Option (Option (Implementation σ)) :=
  match r.given? s bodies (r.perform bodies s).1 with
  | some (given, implementation) => if given = key then some (some implementation) else none
  | none => if r.empties then some none else none

namespace Deed

/-- The system after a deed. -/
def after (deed : Deed σ) : System σ :=
  (deed.action.perform deed.before).2

/-- What a deed settles about the base of an operation: only requests do. -/
def settles? (deed : Deed σ) : Key → Option (Option (Implementation σ)) :=
  match deed.action with
  | .request r bodies => r.settles? bodies deed.before
  | _ => fun _ => none

end Deed

namespace History

/-- **The base of an operation according to a history**: what the latest deed that
settled it says. -/
def base? (history : List (Deed σ)) (key : Key) : Option (Implementation σ) :=
  (history.reverse.findSome? fun deed => deed.settles? key).join

@[simp] theorem base?_nil (key : Key) : base? ([] : List (Deed σ)) key = none := rfl

theorem base?_append_singleton (history : List (Deed σ)) (deed : Deed σ) (key : Key) :
    base? (history ++ [deed]) key = (deed.settles? key).getD (base? history key) := by
  rw [base?]
  rw [List.reverse_append, List.reverse_singleton, List.singleton_append, List.findSome?_cons]
  rcases deed.settles? key with _ | settled
  · rfl
  · rfl

end History

/-! ### What a deed does to the table -/

/-- **All that a deed can do to a table**, with what it settles about bases. -/
inductive Table.Change (table : Table σ) :
    (Key → Option (Option (Implementation σ))) → Table σ → Prop
  /-- An operation that nobody owns gets an implementation. -/
  | given (key : Key) (implementation : Implementation σ) (unowned : table.owner? key = none) :
      Change table (fun other => if key = other then some (some implementation) else none)
        (table.put key (.free implementation))
  /-- The table is emptied. -/
  | emptied : Change table (fun _ => some none) .empty
  /-- Owners change hands. -/
  | handed {table' : Table σ} (h : table.Handovers table') : Change table (fun _ => none) table'

namespace Table.Change

variable {table table' : Table σ} {settles : Key → Option (Option (Implementation σ))}

/-- The new base of an operation is what was settled about it, or else the old one. -/
theorem base?_eq (h : Change table settles table') (key : Key) :
    table'.base? key = (settles key).getD (table.base? key) := by
  cases h with
  | given key' implementation =>
    rw [base?_put, Slot.base_free]
    by_cases he : key = key'
    · simp [he]
    · simp [he, Ne.symm he]
  | emptied => rfl
  | handed h => exact h.base?_eq key

theorem sound (h : Change table settles table') (ht : table.Sound) : table'.Sound := by
  cases h with
  | given key implementation => exact sound_put_free ht key implementation
  | emptied => exact sound_empty
  | handed h => exact h.sound ht

/-- Nothing is settled and the table stays as it is. -/
theorem same (table : Table σ) : Change table (fun _ => none) table :=
  .handed .refl

end Table.Change

/-- An operation without a slot has no owner. -/
theorem Table.owner?_eq_none_of_find?_eq_none {table : Table σ} {key : Key}
    (h : table.find? key = none) : table.owner? key = none := by
  simp [owner?, h]

/-- Defining an operation either gives it the implementation, or is refused and changes
nothing. -/
theorem System.define_cases (s : System σ) (key : Key) (implementation : Implementation σ) :
    (∃ done, (s.define key implementation).1 = .ok done ∧ s.table.owner? key = none ∧
      (s.define key implementation).2.table = s.table.put key (.free implementation)) ∨
    ∃ error, s.define key implementation = (.error error, s) := by
  rw [define]
  split
  · next h =>
    obtain ⟨hf, rfl⟩ := Table.define_eq_ok_iff.mp h
    exact Or.inl ⟨(), rfl, Table.owner?_eq_none_of_find?_eq_none hf, rfl⟩
  · next error h => exact Or.inr ⟨error, rfl⟩

/-- Exchanging an implementation either gives the operation the new one, or is refused
and changes nothing. -/
theorem System.exchange_cases (s : System σ) (key : Key) (implementation : Implementation σ) :
    (∃ kept, (s.exchange key implementation).1 = .ok kept ∧ s.table.owner? key = none ∧
      (s.exchange key implementation).2.table = s.table.put key (.free implementation)) ∨
    ∃ error, s.exchange key implementation = (.error error, s) := by
  rw [exchange]
  split
  · next old table h =>
    obtain ⟨hf, rfl⟩ := Table.exchange_eq_ok_iff.mp h
    refine Or.inl ⟨_, rfl, ?_, rfl⟩
    simp [Table.owner?, hf]
  · next error h => exact Or.inr ⟨error, rfl⟩

/-- A request that gives an operation an implementation does just that. -/
theorem Request.change_of_given {r : Request} {bodies : r.Body → Program σ} {s : System σ}
    {key : Key} {implementation : Implementation σ}
    (hg : r.given? s bodies (r.perform bodies s).1 = some (key, implementation))
    (unowned : s.table.owner? key = none)
    (ht : (r.perform bodies s).2.table = s.table.put key (.free implementation)) :
    s.table.Change (r.settles? bodies s) (r.perform bodies s).2.table := by
  have hs : r.settles? bodies s =
      fun other => if key = other then some (some implementation) else none := by
    funext other
    rw [settles?, hg]
  rw [hs, ht]
  exact .given key implementation unowned

/-- A request that gives nothing away, and does not empty the table, can only change
owners. -/
theorem Request.change_of_handovers {r : Request} {bodies : r.Body → Program σ} {s : System σ}
    (hg : r.given? s bodies (r.perform bodies s).1 = none) (hr : r.empties = false)
    (ht : s.table.Handovers (r.perform bodies s).2.table) :
    s.table.Change (r.settles? bodies s) (r.perform bodies s).2.table := by
  have hs : r.settles? bodies s = fun _ => none := by
    funext other
    rw [settles?, hg, hr]
    rfl
  rw [hs]
  exact .handed ht

/-- A request that leaves the table alone settles nothing. -/
theorem Request.change_of_table_eq {r : Request} {bodies : r.Body → Program σ} {s : System σ}
    (hg : r.given? s bodies (r.perform bodies s).1 = none) (hr : r.empties = false)
    (ht : (r.perform bodies s).2.table = s.table) :
    s.table.Change (r.settles? bodies s) (r.perform bodies s).2.table :=
  change_of_handovers hg hr (by rw [ht])

/-- **What a request does to the table.** -/
theorem Request.change (r : Request) (bodies : r.Body → Program σ) (s : System σ) :
    s.table.Change (r.settles? bodies s) (r.perform bodies s).2.table := by
  cases r with
  -- these four give an operation an implementation, unless they are refused
  | define key =>
    rcases s.define_cases key (.plain (bodies ())) with ⟨done, hok, ho, ht⟩ | ⟨error, he⟩
    · exact change_of_given (by simp only [perform, given?, hok]) ho ht
    · exact change_of_table_eq (by simp only [perform, given?, he]) rfl (by rw [perform, he])
  | defineKept key kept =>
    rcases s.define_cases key (s.keptImplementation kept) with ⟨done, hok, ho, ht⟩ | ⟨error, he⟩
    · exact change_of_given (by simp only [perform, given?, hok]) ho ht
    · exact change_of_table_eq (by simp only [perform, given?, he]) rfl (by rw [perform, he])
  | exchange key =>
    rcases s.exchange_cases key (.plain (bodies ())) with ⟨old, hok, ho, ht⟩ | ⟨error, he⟩
    · exact change_of_given (by simp only [perform, given?, hok]) ho ht
    · exact change_of_table_eq (by simp only [perform, given?, he]) rfl (by rw [perform, he])
  | exchangeKept key kept =>
    rcases s.exchange_cases key (s.keptImplementation kept) with ⟨old, hok, ho, ht⟩ | ⟨error, he⟩
    · exact change_of_given (by simp only [perform, given?, hok]) ho ht
    · exact change_of_table_eq (by simp only [perform, given?, he]) rfl (by rw [perform, he])
  | reset => exact .emptied
  -- from here on nothing is given: first what may change owners, then what may not
  | removeAll => exact change_of_handovers rfl rfl s.handover_removeAll
  | install handle => exact change_of_handovers rfl rfl (s.handover_install handle)
  | remove handle => exact change_of_handovers rfl rfl (s.handover_remove handle)
  | drop handle => exact change_of_handovers rfl rfl (s.handover_drop handle)
  | dropAll handles => exact change_of_handovers rfl rfl (s.handover_dropAll handles)
  | timeTargets config collector =>
    exact change_of_handovers rfl rfl (System.handover_timeEach ..)
  | attach group operation level slot =>
    exact change_of_handovers rfl rfl (s.handover_attach group operation level slot bodies)
  | removeInstrumentation group =>
    exact change_of_handovers rfl rfl (s.handover_removeInstrumentation group)
  | keep key => exact change_of_table_eq rfl rfl (s.table_keepCurrent key)
  | create key => exact change_of_table_eq rfl rfl (s.table_create key)
  | contains key | operations | intercepted | view handle | viewCollector collector =>
    exact change_of_table_eq rfl rfl rfl
  | setEnabled handle enabled => exact change_of_table_eq rfl rfl (s.table_setEnabled ..)
  | setHook handle slot => exact change_of_table_eq rfl rfl (s.table_setHook ..)
  | collect handle collector => exact change_of_table_eq rfl rfl (s.table_collect ..)
  | clearHook handle slot => exact change_of_table_eq rfl rfl (s.table_clearHook ..)
  | createCollector capacity threshold captures =>
    exact change_of_table_eq rfl rfl (s.table_createCollector ..)
  | drain collector max => exact change_of_table_eq rfl rfl (s.table_drain ..)
  | drainAll collector => exact change_of_table_eq rfl rfl (s.table_drain ..)
  | setAllEnabled group enabled => exact change_of_table_eq rfl rfl (s.table_setAllEnabled ..)

/-- **What a deed does to the table.** -/
theorem Deed.change (deed : Deed σ) :
    deed.before.table.Change deed.settles? deed.after.table := by
  obtain ⟨s, action⟩ := deed
  cases action with
  | request r bodies => exact r.change bodies s
  | deliver collector record arguments =>
    exact .handed (by rw [after, Action.perform, System.table_deliver])
  | lookup key | kept number | enabled handle | hooks handle | readClock | memory change =>
    exact .same s.table
  | record key start stop replaced => exact .same s.table

/-! ### The history of threads that take turns -/

namespace Crew

/-- What a thread does when it is its turn, if it has not ended. -/
def deed? (crew : Crew σ α) (member : Nat) : Option (Deed σ) :=
  match crew.threads[member]? with
  | some (.act action _) => some ⟨crew.system, action⟩
  | _ => none

/-- **What threads do** when they take turns as a list says. -/
def history (crew : Crew σ α) : List Nat → List (Deed σ)
  | [] => []
  | turn :: turns => (crew.deed? turn).toList ++ (crew.step turn).history turns

/-- A turn leaves the system as the deed of that turn does. -/
theorem system_step (crew : Crew σ α) (member : Nat) :
    (crew.step member).system = (crew.deed? member).elim crew.system Deed.after := by
  rw [step, deed?]
  rcases crew.threads[member]? with _ | (_ | _ | _)
  · rfl
  · rfl
  · rfl
  · rfl

/-- A deed is done to the system as it is. -/
theorem before_of_deed? {crew : Crew σ α} {member : Nat} {d : Deed σ}
    (h : crew.deed? member = some d) : d.before = crew.system := by
  rw [deed?] at h
  split at h
  · obtain rfl := Option.some.inj h
    rfl
  · cases h

/-- **What every deed keeps holds at every moment**, of the system together with its
history. -/
theorem follow_induction {P : List (Deed σ) → System σ → Prop}
    (deed : ∀ history d, P history d.before → P (history ++ [d]) d.after)
    {crew : Crew σ α} {past : List (Deed σ)} (h : P past crew.system) (turns : List Nat) :
    P (past ++ crew.history turns) (crew.follow turns).system := by
  induction turns generalizing crew past with
  | nil => simpa [history, follow] using h
  | cons turn turns ih =>
    have hfollow : crew.follow (turn :: turns) = (crew.step turn).follow turns := rfl
    rw [hfollow, history, ← List.append_assoc]
    refine ih ?_
    -- a turn makes one deed at most, and it starts from the system as it is
    rw [system_step]
    rcases hd : crew.deed? turn with _ | d
    · simpa using h
    · exact deed past d (before_of_deed? hd ▸ h)

/-- **What holds when there is nothing and what every deed keeps holds at every moment** of every
course of events that starts with nothing. -/
theorem start_induction (P : List (Deed σ) → System σ → Prop)
    (deed : ∀ history d, P history d.before → P (history ++ [d]) d.after) {clock : Clock}
    {memory : σ} (start : P [] (.start clock memory)) (threads : List (Thread σ α))
    (turns : List Nat) :
    let crew : Crew σ α := ⟨threads, .start clock memory⟩
    P (crew.history turns) (crew.follow turns).system := by
  intro crew
  have h : P ([] ++ crew.history turns) (crew.follow turns).system :=
    follow_induction deed start turns
  exact h

end Crew

/-! ### What a history says of the system -/

/-- **A system that a history accounts for**: its slots are sound, and the bases in it
are those of the history. -/
structure History.Accounts (history : List (Deed σ)) (s : System σ) : Prop where
  /-- Nothing stands between owners and bases. -/
  sound : s.table.Sound
  /-- The bases are those of the history. -/
  base?_eq : ∀ key, s.table.base? key = History.base? history key

namespace History.Accounts

theorem start (clock : Clock) (memory : σ) : Accounts [] (.start clock memory) :=
  ⟨Table.sound_empty, fun _ => rfl⟩

/-- One more deed is accounted for. -/
theorem deed {history : List (Deed σ)} {d : Deed σ} (h : Accounts history d.before) :
    Accounts (history ++ [d]) d.after where
  sound := d.change.sound h.sound
  base?_eq key := by
    rw [d.change.base?_eq, h.base?_eq, History.base?_append_singleton]

/-- **Every moment of every course of events is accounted for.** -/
theorem follow (clock : Clock) (memory : σ) (threads : List (Thread σ α)) (turns : List Nat) :
    let crew : Crew σ α := ⟨threads, .start clock memory⟩
    Accounts (crew.history turns) (crew.follow turns).system :=
  Crew.start_induction Accounts (fun _ _ h => h.deed) (start clock memory) threads turns

variable {history : List (Deed σ)} {s : System σ}

/-- The slot of a defined operation is one of two: its base stands in it, or an
interceptor has put its trampoline around the base and left the base aside. -/
theorem slot_cases (h : Accounts history s) {key : Key} {slot : Slot σ}
    (hf : s.table.find? key = some slot) :
    ∃ base, History.base? history key = some base ∧
      (slot = .free base ∨
        ∃ owner : Handle, owner.key = key ∧ slot = (Slot.free base).interceptedBy owner) := by
  refine ⟨slot.base, ?_, ?_⟩
  · rw [← h.base?_eq, Table.base?, hf]
    rfl
  · cases h.sound key slot hf with
    | free given => exact Or.inl rfl
    | intercepted given owner forKey => exact Or.inr ⟨owner, forKey, rfl⟩

/-- An operation that nobody owns is its base. -/
theorem lookup_of_owner?_eq_none (h : Accounts history s) {key : Key}
    (ho : s.table.owner? key = none) :
    s.table.lookup key =
      (History.base? history key).elim (.error (.targetNotFound key)) .ok := by
  rw [← h.base?_eq, Table.base?, Table.lookup]
  rcases hf : s.table.find? key with _ | slot
  · rfl
  · have hslot : slot.owner? = none := by simpa [Table.owner?, hf] using ho
    rw [Slot.eq_free_of_owner?_eq_none hslot]
    rfl

end History.Accounts

/-- **No implementation is ever lost, and trampolines do not pile up.** At every moment of
every course of events that starts with nothing, and for every defined operation, exactly
one of two things holds: nobody owns the operation, and its base according to the history
stands in its slot; or an interceptor for the operation owns it, has left exactly that
base aside, and has put its trampoline directly around it. So an operation that nobody
owns is looked up as its base. -/
theorem slot_of_history (clock : Clock) (memory : σ) (threads : List (Thread σ α))
    (turns : List Nat) :
    let crew : Crew σ α := ⟨threads, .start clock memory⟩
    let table := (crew.follow turns).system.table
    let base? := History.base? (crew.history turns)
    (∀ key slot, table.find? key = some slot →
      ∃ base, base? key = some base ∧
        Xor (slot.capture = none ∧ slot.implementation = base)
          (∃ owner : Handle, owner.key = key ∧ slot.capture = some ⟨owner, base⟩ ∧
            slot.implementation = .trampoline owner base)) ∧
      ∀ key, table.owner? key = none →
        table.lookup key = (base? key).elim (.error (.targetNotFound key)) .ok := by
  intro crew table base?
  have h : History.Accounts (crew.history turns) (crew.follow turns).system :=
    .follow clock memory threads turns
  refine ⟨fun key slot hf => ?_, fun key ho => h.lookup_of_owner?_eq_none ho⟩
  obtain ⟨base, hbase, hslot⟩ := h.slot_cases hf
  refine ⟨base, hbase, ?_⟩
  rcases hslot with rfl | ⟨owner, hkey, rfl⟩
  · refine Or.inl ⟨⟨rfl, rfl⟩, ?_⟩
    rintro ⟨owner, -, hc, -⟩
    cases hc
  · refine Or.inr ⟨⟨owner, hkey, rfl, rfl⟩, ?_⟩
    rintro ⟨hc, -⟩
    cases hc

end Interception
