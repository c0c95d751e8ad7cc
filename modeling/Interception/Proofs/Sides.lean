import Interception.Proofs.Agreement
import Interception.Proofs.Capture

/-!
# Two sides of a system

A `Side` is a part of what a system holds: some operations, some of the implementations that were
kept, and what can be seen of the memory from there. Nothing is said of how large it is. What is
compared here is one side in two systems, which may differ in everything else.

| relation | between | says |
|---|---|---|
| `Side.Same` | two systems | the side is the same in both |
| `Side.Spares` | before and after | nothing but the side has changed |
| `System.KeepsTo` | | whatever runs for the side calls only the side |

A call on the side then comes to the same in both systems, and spares what is not on the side
(`alike_call`). Two runs of one body need not be the same step by step, because an after-hook is
given a record, and the number of a record and the times in it depend on everything that happens.
So bodies are compared in pairs (`Program.Alike`): an after-hook keeps to a side if what it does
with two records of the same call is alike.
-/

namespace Interception

variable {σ α β : Type}

/-! ### Sides -/

/-- **A part of what a system holds.** -/
structure Side (σ : Type) where
  /-- The operations of the side. -/
  keys : Key → Prop
  /-- The implementations that were kept for it. -/
  kept : KeptId → Prop
  /-- What there is to be seen of the memory. -/
  View : Type
  /-- What the side sees of the memory. -/
  view : σ → View

/-! ### Bodies that keep to a side -/

/-- **Two bodies that do the same on one side**, and nothing on another one. Each of them calls
operations of its own side only, changes of the memory what is seen from there, and goes by what is
seen from there. -/
inductive Program.Alike (own other : Side σ) : Program σ → Program σ → Prop
  | done (value : Value) : Alike own other (.done value) (.done value)
  | fail (failure : Failure) : Alike own other (.fail failure) (.fail failure)
  | abort (fault : Fault) : Alike own other (.abort fault) (.abort fault)
  | inspect {next next' : Invocation → Program σ}
      (h : ∀ call, Alike own other (next call) (next' call)) :
      Alike own other (.inspect next) (.inspect next')
  | set (index : Nat) (value : Value) {next next' : Option Value → Program σ}
      (h : ∀ old, Alike own other (next old) (next' old)) :
      Alike own other (.set index value next) (.set index value next')
  | memory {change change' : σ → σ} {next next' : σ → Program σ}
      (hown : ∀ m m', own.view m' = own.view m → own.view (change' m') = own.view (change m))
      (hother : ∀ m, other.view (change m) = other.view m)
      (h : ∀ m m', own.view m' = own.view m → Alike own other (next m) (next' m')) :
      Alike own other (.memory change next) (.memory change' next')
  | call {callee : Invocation} (hkey : own.keys callee.key)
      {next next' : Except CallError Value → Program σ}
      (h : ∀ answer, Alike own other (next answer) (next' answer)) :
      Alike own other (.call callee next) (.call callee next')
  | callKept {number : KeptId} (hnumber : own.kept number) (callee : Invocation)
      {next next' : Except Failure Value → Invocation → Program σ}
      (h : ∀ result call, Alike own other (next result call) (next' result call)) :
      Alike own other (.callKept number callee next) (.callKept number callee next')

/-- **A body that keeps to a side.** -/
def Program.KeepsTo (own other : Side σ) (body : Program σ) : Prop :=
  body.Alike own other body

/-- **A hook that keeps to a side.** What a hook does with a record may depend on the call, and not
on the number of the record or the times in it. -/
def HookSlot.KeepsTo (own other : Side σ) : (slot : HookSlot) → (slot.Input → Program σ) → Prop
  | .before, body | .replace, body => (body ()).KeepsTo own other
  | .after, body => ∀ record record' : Record, record'.key = record.key →
      record'.arguments = record.arguments → (body record).Alike own other (body record')

/-- Hooks that keep to a side. Any collector may get the records. -/
structure Hooks.KeepsTo (own other : Side σ) (hooks : Hooks σ) : Prop where
  /-- What runs before does. -/
  before : ∀ body, hooks.before = some body → HookSlot.before.KeepsTo own other fun _ => body
  /-- What runs instead does. -/
  replace : ∀ body, hooks.replace = some body → HookSlot.replace.KeepsTo own other fun _ => body
  /-- What runs after does. -/
  after : ∀ body, hooks.after = some (.run body) → HookSlot.after.KeepsTo own other body

theorem Hooks.KeepsTo.none {own other : Side σ} : (Hooks.none : Hooks σ).KeepsTo own other where
  before body h := by cases h
  replace body h := by cases h
  after body h := by cases h

/-- The operations that the interceptors were created for, in the order of their numbers. -/
def System.roster (s : System σ) : List Key :=
  s.interceptors.map Interceptor.key

/-- **An implementation that keeps to a side**: its body does, and whatever interceptors it goes
through are for operations of the side. -/
def Implementation.KeepsTo (own other : Side σ) (roster : List Key) : Implementation σ → Prop
  | .plain body => body.KeepsTo own other
  | .trampoline owner covered =>
    (∀ key, roster[owner.number]? = some key → own.keys key) ∧ covered.KeepsTo own other roster

/-- **A system in which whatever runs for a side keeps to it.** -/
structure System.KeepsTo (own other : Side σ) (s : System σ) : Prop where
  /-- The operations of the side do. -/
  bases : ∀ key base, own.keys key → s.table.base? key = some base →
    base.KeepsTo own other s.roster
  /-- So do the hooks of its interceptors. -/
  hooks : ∀ (number : Nat) (i : Interceptor σ), s.interceptors[number]? = some i → own.keys i.key →
    i.hooks.KeepsTo own other
  /-- So do the implementations that were kept for it. -/
  kept : ∀ number, own.kept number → ∃ implementation, s.kept[number]? = some implementation ∧
    implementation.KeepsTo own other s.roster

/-- The interceptor under a number is for the operation on the roster. -/
theorem System.getElem?_roster (s : System σ) (number : Nat) :
    s.roster[number]? = (s.interceptors[number]?).map Interceptor.key :=
  List.getElem?_map

/-! ### One side in two systems -/

namespace Side

/-- **Two systems that are the same on one side.** -/
structure Same (own : Side σ) (s s' : System σ) : Prop where
  /-- Its operations have the same slots. -/
  slots : ∀ key, own.keys key → s'.table.find? key = s.table.find? key
  /-- There are interceptors for the same operations. -/
  roster_eq : s'.roster = s.roster
  /-- Its interceptors are the same. -/
  interceptors : ∀ (number : Nat) (i : Interceptor σ), s.interceptors[number]? = some i →
    own.keys i.key → s'.interceptors[number]? = some i
  /-- The same was kept for it. -/
  kept_eq : ∀ number, own.kept number → s'.kept[number]? = s.kept[number]?
  /-- It sees the same of the memory. -/
  view_eq : own.view s'.memory = own.view s.memory

/-- **Nothing but one side has changed**, and what another side sees of the memory is as before. -/
structure Spares (own other : Side σ) (s s' : System σ) : Prop where
  /-- Other operations have the slots that they had. -/
  slots : ∀ key, ¬own.keys key → s'.table.find? key = s.table.find? key
  /-- There are interceptors for the same operations. -/
  roster_eq : s'.roster = s.roster
  /-- Other interceptors are as they were. -/
  interceptors : ∀ (number : Nat) (i : Interceptor σ), s.interceptors[number]? = some i →
    ¬own.keys i.key → s'.interceptors[number]? = some i
  /-- What was kept is kept. -/
  kept_prefix : s.kept <+: s'.kept
  /-- The other side sees the same of the memory. -/
  view_eq : other.view s'.memory = other.view s.memory

variable {own other : Side σ} {s s' s'' : System σ}

namespace Same

theorem refl (own : Side σ) (s : System σ) : own.Same s s :=
  ⟨fun _ _ => rfl, rfl, fun _ _ hi _ => hi, fun _ _ => rfl, rfl⟩

/-- Where one system has an interceptor of the side, the other one has it too. -/
theorem getElem?_eq_some_iff (h : own.Same s s') {number : Nat} {i : Interceptor σ}
    (hi : own.keys i.key) :
    s'.interceptors[number]? = some i ↔ s.interceptors[number]? = some i := by
  refine ⟨fun hs' => ?_, fun hs => h.interceptors number i hs hi⟩
  -- the roster says that there is one for the same operation, so it is the same one
  have hroster := congrArg (fun roster : List Key => roster[number]?) h.roster_eq
  simp only [System.getElem?_roster, hs', Option.map_some] at hroster
  obtain ⟨j, hj, hkey⟩ := Option.map_eq_some_iff.mp hroster.symm
  have hj' := h.interceptors number j hj (hkey ▸ hi)
  rw [hs'] at hj'
  rwa [Option.some.inj hj']

theorem symm (h : own.Same s s') : own.Same s' s where
  slots key hkey := (h.slots key hkey).symm
  roster_eq := h.roster_eq.symm
  interceptors _ _ hi hkey := (h.getElem?_eq_some_iff hkey).mp hi
  kept_eq number hnumber := (h.kept_eq number hnumber).symm
  view_eq := h.view_eq.symm

theorem trans (h : own.Same s s') (h' : own.Same s' s'') : own.Same s s'' where
  slots key hkey := (h'.slots key hkey).trans (h.slots key hkey)
  roster_eq := h'.roster_eq.trans h.roster_eq
  interceptors number i hi hkey := h'.interceptors number i (h.interceptors number i hi hkey) hkey
  kept_eq number hnumber := (h'.kept_eq number hnumber).trans (h.kept_eq number hnumber)
  view_eq := h'.view_eq.trans h.view_eq

/-- **What keeps to a side does so in every system** that is the same on that side. -/
theorem keepsTo (h : own.Same s s') (hs : s.KeepsTo own other) : s'.KeepsTo own other where
  bases key base hkey hbase := by
    rw [Table.base?, h.slots key hkey] at hbase
    rw [h.roster_eq]
    exact hs.bases key base hkey hbase
  hooks number i hi hkey := hs.hooks number i ((h.getElem?_eq_some_iff hkey).mp hi) hkey
  kept number hnumber := by
    rw [h.kept_eq number hnumber, h.roster_eq]
    exact hs.kept number hnumber

/-- The interceptor that a handle stands for is the same in both systems. -/
theorem interceptor?_eq (h : own.Same s s') {handle : Handle} (hkey : own.keys handle.key) :
    s'.interceptor? handle = s.interceptor? handle := by
  have hsome : ∀ i, s'.interceptor? handle = some i ↔ s.interceptor? handle = some i := by
    intro i
    simp only [System.interceptor?, Option.filter_eq_some_iff, Bool.and_eq_true, decide_eq_true_eq]
    refine and_congr_left fun hi => h.getElem?_eq_some_iff ?_
    rw [hi.2]
    exact hkey
  exact Option.ext hsome

end Same

namespace Spares

/-- **Sparing everything but one side** is sparing every side that has nothing in common with
it. -/
theorem same (h : own.Spares other s s') (hdisjoint : ∀ key, other.keys key → ¬own.keys key)
    (hkept : ∀ number, other.kept number → number < s.kept.length) : other.Same s s' where
  slots key hkey := h.slots key (hdisjoint key hkey)
  roster_eq := h.roster_eq
  interceptors number i hi hkey := h.interceptors number i hi (hdisjoint _ hkey)
  kept_eq number hnumber := by
    obtain ⟨more, hmore⟩ := h.kept_prefix
    rw [← hmore, List.getElem?_append_left (hkept number hnumber)]
  view_eq := h.view_eq

end Spares

end Side

/-! ### Ready for calls -/

/-- **A system that is ready for calls on a side**, with a given roster: owners are in order, and
whatever runs for the side keeps to it. -/
structure System.Ready (own other : Side σ) (roster : List Key) (s : System σ) : Prop where
  /-- Owners are in order. -/
  inOrder : s.InOrder
  /-- Whatever runs for the side keeps to it. -/
  keepsTo : s.KeepsTo own other
  /-- The interceptors are for these operations. -/
  roster_eq : s.roster = roster

/-- **What a call changes**: nothing of the table, of the interceptors and of what was kept, and
nothing that another side sees of the memory. -/
structure System.Stays (other : Side σ) (s s' : System σ) : Prop where
  /-- The table is the same. -/
  table_eq : s'.table = s.table
  /-- So are the interceptors. -/
  interceptors_eq : s'.interceptors = s.interceptors
  /-- So is what was kept. -/
  kept_eq : s'.kept = s.kept
  /-- The other side sees the same of the memory. -/
  view_eq : other.view s'.memory = other.view s.memory

namespace System

variable {own other : Side σ} {roster : List Key} {s s' s'' : System σ}

namespace Stays

theorem refl (other : Side σ) (s : System σ) : s.Stays other s :=
  ⟨rfl, rfl, rfl, rfl⟩

theorem trans (h : s.Stays other s') (h' : s'.Stays other s'') : s.Stays other s'' :=
  ⟨h'.table_eq.trans h.table_eq, h'.interceptors_eq.trans h.interceptors_eq,
    h'.kept_eq.trans h.kept_eq, h'.view_eq.trans h.view_eq⟩

theorem spares (h : s.Stays other s') (own : Side σ) : own.Spares other s s' where
  slots key _ := by rw [h.table_eq]
  roster_eq := congrArg (List.map Interceptor.key) h.interceptors_eq
  interceptors number i hi _ := by rwa [h.interceptors_eq]
  kept_prefix := ⟨[], by rw [List.append_nil, h.kept_eq]⟩
  view_eq := h.view_eq

/-- Where the side itself sees the same of the memory, it is the same. -/
theorem same (h : s.Stays own s') : own.Same s s' where
  slots key _ := by rw [h.table_eq]
  roster_eq := congrArg (List.map Interceptor.key) h.interceptors_eq
  interceptors number i hi _ := by rwa [h.interceptors_eq]
  kept_eq number _ := by rw [h.kept_eq]
  view_eq := h.view_eq

end Stays

namespace Ready

theorem stays (h : s.Ready own other roster) (hs : s.Stays other s') :
    s'.Ready own other roster := by
  have hroster : s'.roster = s.roster := congrArg (List.map Interceptor.key) hs.interceptors_eq
  refine ⟨h.inOrder.congr hs.table_eq hs.interceptors_eq, ⟨?_, ?_, ?_⟩, hroster.trans h.roster_eq⟩
  · rw [hs.table_eq, hroster]
    exact h.keepsTo.bases
  · rw [hs.interceptors_eq]
    exact h.keepsTo.hooks
  · rw [hs.kept_eq, hroster]
    exact h.keepsTo.kept

/-- **What is looked up for a call on a side keeps to it**: its base does, and so does the
trampoline of its owner, which was created for the operation. -/
theorem lookup (h : s.Ready own other roster) {key : Key} (hkey : own.keys key)
    {implementation : Implementation σ} (hl : s.table.lookup key = .ok implementation) :
    implementation.KeepsTo own other roster := by
  obtain ⟨base, hbase, hcases⟩ := h.inOrder.sound.lookup_cases hl
  have hkeeps := h.keepsTo.bases key base hkey hbase
  rw [h.roster_eq] at hkeeps
  rcases hcases with ⟨-, rfl⟩ | ⟨owner, rfl, ho, rfl⟩
  · exact hkeeps
  · refine ⟨fun key hroster => ?_, hkeeps⟩
    obtain ⟨i, hi, -, hkey'⟩ := h.inOrder.live _ owner ho
    rw [← h.roster_eq, s.getElem?_roster, hi] at hroster
    obtain rfl := Option.some.inj hroster
    rwa [hkey']

/-- The hooks of an interceptor of the side keep to it; where there is no interceptor, there are
none. -/
theorem hooks (h : s.Ready own other roster) {handle : Handle}
    (hkeys : ∀ key, roster[handle.number]? = some key → own.keys key) :
    (s.hooks handle).KeepsTo own other := by
  rw [System.hooks]
  cases hi : s.interceptors[handle.number]? with
  | none => exact .none
  | some i =>
    refine h.keepsTo.hooks _ i hi (hkeys i.key ?_)
    rw [← h.roster_eq, s.getElem?_roster, hi, Option.map_some]

end Ready

end System

/-- Where the operation of an interceptor is on the side, both systems have the same one, or
none. -/
theorem Side.Same.getElem?_eq {own : Side σ} {s s' : System σ} (h : own.Same s s') {number : Nat}
    (hkeys : ∀ key, s.roster[number]? = some key → own.keys key) :
    s'.interceptors[number]? = s.interceptors[number]? := by
  have hroster := congrArg (fun roster : List Key => roster[number]?) h.roster_eq
  simp only [System.getElem?_roster] at hroster hkeys
  cases hi : s.interceptors[number]? with
  | none => simpa [hi] using hroster
  | some i => exact h.interceptors number i hi (hkeys i.key (by rw [hi, Option.map_some]))

/-! ### Calls on one side -/

/-- **Two threads that do the same on one side**: where the side is the same, it stays the same,
they come to the same, and nothing else has changed. -/
def RunsAlike (own other : Side σ) (roster : List Key) (t t' : Thread σ α) : Prop :=
  ∀ s s' : System σ, s.Ready own other roster → own.Same s s' →
    (t'.run s').1 = (t.run s).1 ∧ own.Same (t.run s).2 (t'.run s').2 ∧ s.Stays other (t.run s).2

namespace RunsAlike

variable {own other : Side σ} {roster : List Key}

theorem done (result : α) : RunsAlike own other roster (.done result) (.done result) :=
  fun s _ _ hsame => ⟨rfl, hsame, .refl other s⟩

theorem aborted (fault : Fault) :
    RunsAlike own other roster (.aborted fault : Thread σ α) (.aborted fault) :=
  fun s _ _ hsame => ⟨rfl, hsame, .refl other s⟩

theorem bind {t t' : Thread σ α} {f f' : α → Thread σ β} (h : RunsAlike own other roster t t')
    (hnext : ∀ result, RunsAlike own other roster (f result) (f' result)) :
    RunsAlike own other roster (t.bind f) (t'.bind f') := by
  intro s s' hready hsame
  obtain ⟨hresult, hsame', hstays⟩ := h s s' hready hsame
  rw [Thread.run_bind, Thread.run_bind]
  generalize t.run s = ran at hresult hsame' hstays ⊢
  generalize t'.run s' = ran' at hresult hsame' ⊢
  obtain ⟨result, s₁⟩ := ran
  obtain ⟨result', s₁'⟩ := ran'
  obtain rfl := hresult
  rcases result' with fault | result
  · exact ⟨rfl, hsame', hstays⟩
  · obtain ⟨hanswer, hlast, hstays'⟩ := hnext result s₁ s₁' (hready.stays hstays) hsame'
    exact ⟨hanswer, hlast, hstays.trans hstays'⟩

theorem map {t t' : Thread σ α} (h : RunsAlike own other roster t t') (f : α → β) :
    RunsAlike own other roster (t.map f) (t'.map f) :=
  h.bind fun result => .done (f result)

/-- Two actions, perhaps with different answers. -/
theorem act {action action' : Action σ} {next : action.Answer → Thread σ α}
    {next' : action'.Answer → Thread σ α}
    (h : ∀ s s' : System σ, s.Ready own other roster → own.Same s s' →
      own.Same (action.perform s).2 (action'.perform s').2 ∧
        s.Stays other (action.perform s).2 ∧
          RunsAlike own other roster (next (action.perform s).1) (next' (action'.perform s').1)) :
    RunsAlike own other roster (.act action next) (.act action' next') := by
  intro s s' hready hsame
  obtain ⟨hsame', hstays, hnext⟩ := h s s' hready hsame
  obtain ⟨hresult, hlast, hstays'⟩ := hnext _ _ (hready.stays hstays) hsame'
  exact ⟨hresult, hlast, hstays.trans hstays'⟩

/-- Looking something up that is the same in both systems. -/
theorem look {action : Action σ} {next next' : action.Answer → Thread σ α}
    (hstill : ∀ s : System σ, (action.perform s).2 = s)
    (h : ∀ s s' : System σ, s.Ready own other roster → own.Same s s' →
      (action.perform s').1 = (action.perform s).1 ∧
        RunsAlike own other roster (next (action.perform s).1) (next' (action.perform s).1)) :
    RunsAlike own other roster (.act action next) (.act action next') := by
  refine .act fun s s' hready hsame => ?_
  obtain ⟨hanswer, hnext⟩ := h s s' hready hsame
  rw [hstill, hstill, hanswer]
  exact ⟨hsame, .refl other s, hnext⟩

/-- Looking at the clock, which need not show the same. -/
theorem readClock {next next' : Reading → Thread σ α}
    (h : ∀ reading reading', RunsAlike own other roster (next reading) (next' reading')) :
    RunsAlike own other roster (.act .readClock next) (.act .readClock next') :=
  .act fun _ _ _ hsame =>
    ⟨⟨hsame.slots, hsame.roster_eq, hsame.interceptors, hsame.kept_eq, hsame.view_eq⟩,
      ⟨rfl, rfl, rfl, rfl⟩, h _ _⟩

/-- Making the record of a call, which need not have the same number and times. -/
theorem record {key : Key} {start start' stop stop' : Reading} {replaced : Bool}
    {next next' : Record → Thread σ α}
    (h : ∀ record record' : Record, record'.key = record.key →
      record'.arguments = record.arguments →
        RunsAlike own other roster (next record) (next' record')) :
    RunsAlike own other roster (.act (.record key start stop replaced) next)
      (.act (.record key start' stop' replaced) next') :=
  .act fun _ _ _ hsame =>
    ⟨⟨hsame.slots, hsame.roster_eq, hsame.interceptors, hsame.kept_eq, hsame.view_eq⟩,
      ⟨rfl, rfl, rfl, rfl⟩, h _ _ rfl rfl⟩

/-- Handing a record to a collector. -/
theorem deliver {collector : CollectorId} {record record' : Record} {arguments : List Value}
    {next : Unit → Thread σ α} (h : RunsAlike own other roster (next ()) (next ())) :
    RunsAlike own other roster (.act (.deliver collector record arguments) next)
      (.act (.deliver collector record' arguments) next) := by
  have hstays : ∀ (s : System σ) (record : Record) (side : Side σ),
      s.Stays side (s.deliver collector record arguments) := by
    intro s record side
    rw [System.deliver]
    split
    · exact ⟨rfl, rfl, rfl, rfl⟩
    · exact .refl side s
  refine .act fun s s' _ hsame => ⟨?_, hstays s record other, h⟩
  -- seen from the side itself, nothing has changed in either system
  exact ((hstays s record own).same.symm.trans hsame).trans (hstays s' record' own).same

end RunsAlike

/-- A runner that does the same on a side with whatever keeps to it. -/
def Runner.KeepsTo (own other : Side σ) (roster : List Key) (nested : Runner σ) : Prop :=
  ∀ implementation : Implementation σ, implementation.KeepsTo own other roster →
    ∀ call, RunsAlike own other roster (nested implementation call) (nested implementation call)

section Nested

variable {own other : Side σ} {roster : List Key} {nested : Runner σ}
  (hnested : nested.KeepsTo own other roster)

include hnested

/-- **A call of an operation of the side.** -/
theorem alike_call {callee : Invocation} (hkey : own.keys callee.key) :
    RunsAlike own other roster (nested.call callee) (nested.call callee) := by
  refine .look (fun _ => rfl) fun s s' hready hsame => ⟨?_, ?_⟩
  · show s'.table.lookup callee.key = s.table.lookup callee.key
    rw [Table.lookup, hsame.slots callee.key hkey, Table.lookup]
  · show RunsAlike own other roster _ _
    cases hl : (Action.lookup callee.key : Action σ).perform s |>.1 with
    | error error => exact .done _
    | ok implementation =>
      exact (hnested implementation (hready.lookup hkey hl) callee).map _

/-- **Bodies that do the same on a side.** -/
theorem alike_body {body body' : Program σ} (h : body.Alike own other body') (call : Invocation) :
    RunsAlike own other roster (body.run nested call) (body'.run nested call) := by
  induction h generalizing call with
  | done value => exact .done _
  | fail failure => exact .done _
  | abort fault => exact .aborted fault
  | inspect _ ih => exact ih call call
  | set index value _ ih => exact ih _ _
  | memory hown hother _ ih =>
    refine .act fun s s' _ hsame => ⟨?_, ⟨rfl, rfl, rfl, hother _⟩, ih _ _ hsame.view_eq _⟩
    exact ⟨hsame.slots, hsame.roster_eq, hsame.interceptors, hsame.kept_eq,
      hown _ _ hsame.view_eq⟩
  | call hkey _ ih => exact (alike_call hnested hkey).bind fun answer => ih answer call
  | @callKept number hnumber callee _ _ _ ih =>
    have hstill : ∀ s : System σ, ((Action.kept number).perform s).2 = s := fun _ => rfl
    refine .look hstill fun s s' hready hsame => ?_
    obtain ⟨implementation, himplementation, hkeeps⟩ := hready.keepsTo.kept number hnumber
    have hkept : s.keptImplementation number = implementation := by
      rw [System.keptImplementation, List.getD_eq_getElem?_getD, himplementation, Option.getD_some]
    have hkept' : s'.keptImplementation number = implementation := by
      rw [System.keptImplementation, List.getD_eq_getElem?_getD, hsame.kept_eq number hnumber,
        himplementation, Option.getD_some]
    refine ⟨hkept'.trans hkept.symm, ?_⟩
    rw [hready.roster_eq] at hkeeps
    rw [Action.perform, hkept]
    exact (hnested implementation hkeeps callee).bind fun outcome => ih _ _ call

/-- A stage in which a hook runs, if there is one. -/
theorem alike_hook {body body' : Program σ} (h : body.Alike own other body')
    (call : Invocation) (f : Outcome → Outcome) :
    RunsAlike own other roster ((body.run nested call).map f) ((body'.run nested call).map f) :=
  (alike_body hnested h call).map f

/-- **The stages of a call** through hooks that keep to the side. -/
theorem alike_stages {handle : Handle} {hooks : Hooks σ} (hhooks : hooks.KeepsTo own other)
    {covered : Invocation → Thread σ Outcome}
    (hcovered : ∀ call, RunsAlike own other roster (covered call) (covered call))
    (call : Invocation) :
    RunsAlike own other roster (stages nested handle hooks covered call)
      (stages nested handle hooks covered call) := by
  have hbefore : ∀ call, RunsAlike own other roster (runBefore nested handle hooks call)
      (runBefore nested handle hooks call) := by
    intro call
    rw [runBefore]
    cases hb : hooks.before with
    | none => exact .done _
    | some body => exact alike_hook hnested (hhooks.before body hb) call _
  have hsegment : ∀ call, RunsAlike own other roster (runSegment nested handle hooks covered call)
      (runSegment nested handle hooks covered call) := by
    intro call
    rw [runSegment]
    cases hr : hooks.replace with
    | none => exact hcovered call
    | some body => exact alike_hook hnested (hhooks.replace body hr) call _
  have hafter : ∀ (record record' : Record) call, record'.key = record.key →
      record'.arguments = record.arguments →
        RunsAlike own other roster (runAfter nested handle hooks record call)
          (runAfter nested handle hooks record' call) := by
    intro record record' call hkey harguments
    rw [runAfter, runAfter]
    rcases ha : hooks.after with _ | (body | collector)
    · exact .done _
    · exact alike_hook hnested (hhooks.after body ha record record' hkey harguments) call _
    · exact .deliver (.done _)
  -- a stage whose outcome is a failure ends the call
  refine (hbefore call).bind fun outcome => ?_
  rw [Outcome.andThen]
  cases outcome.result with
  | error failure => exact .done _
  | ok value =>
    refine .readClock fun start start' => (hsegment _).bind fun outcome => ?_
    rw [Outcome.andThen, Outcome.andThen]
    cases outcome.result with
    | error failure => exact .done _
    | ok value =>
      refine .readClock fun stop stop' => .record fun record record' hkey harguments => ?_
      refine (hafter record record' _ hkey harguments).bind fun outcome => ?_
      rw [Outcome.andThen]
      cases outcome.result with
      | error failure => exact .done _
      | ok value => exact .done _

/-- **An implementation that keeps to a side**: a body, or a trampoline whose interceptor is the
same in both systems. -/
theorem alike_implementation {implementation : Implementation σ}
    (h : implementation.KeepsTo own other roster) (call : Invocation) :
    RunsAlike own other roster (implementation.run nested call)
      (implementation.run nested call) := by
  induction implementation generalizing call with
  | plain body => exact alike_body hnested h call
  | trampoline handle covered ih =>
    obtain ⟨hkeys, hcovered⟩ := h
    rw [Implementation.run]
    refine .look (fun _ => rfl) fun s s' hready hsame => ⟨?_, ?_⟩
    · show s'.enabled handle = s.enabled handle
      rw [System.enabled, hsame.getElem?_eq (hready.roster_eq ▸ hkeys), System.enabled]
    · cases (Action.enabled handle : Action σ).perform s |>.1 with
      | false => exact ih hcovered call
      | true =>
        refine .look (fun _ => rfl) fun s s' hready hsame => ⟨?_, ?_⟩
        · show s'.hooks handle = s.hooks handle
          rw [System.hooks, hsame.getElem?_eq (hready.roster_eq ▸ hkeys), System.hooks]
        · exact alike_stages hnested (hready.hooks hkeys) (ih hcovered) call

end Nested

/-- **Calls that nest to any depth.** -/
theorem keepsTo_runNested {own other : Side σ} {roster : List Key} (depth : Nat) :
    (runNested depth : Runner σ).KeepsTo own other roster := by
  induction depth with
  | zero => exact fun _ _ _ => .aborted _
  | succ depth ih => exact fun _ h call => alike_implementation ih h call

end Interception
