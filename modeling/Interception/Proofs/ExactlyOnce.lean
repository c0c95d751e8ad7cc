import Interception.Proofs.Recording

/-!
# One record for each call that completes

While operations are only given ordinary bodies, no call goes through more than one
trampoline: whatever is found for a call is a body, or the trampoline of one interceptor
around a body (`History.Shallow.finds`). So the passages in the story of a
thread are those of its calls, one each (`Story.Orderly.passages_eq`), and what is known of
passages and records (`Interception.Proofs.Recording`) is known of calls.
`Interception.recording_of_history` puts it together, for any number of programs side by
side.
-/

namespace Interception

variable {σ α : Type}

/-! ### Ordinary bodies -/

namespace Implementation

/-- An ordinary body. -/
def IsPlain : Implementation σ → Prop
  | .plain _ => True
  | .trampoline .. => False

/-- An ordinary body, or the trampoline of one interceptor around one. -/
def IsShallow : Implementation σ → Prop
  | .plain _ => True
  | .trampoline _ covered => covered.IsPlain

theorem IsPlain.isShallow {implementation : Implementation σ} (h : implementation.IsPlain) :
    implementation.IsShallow := by
  cases implementation with
  | plain body => trivial
  | trampoline owner covered => exact h.elim

end Implementation

/-- Whether what a deed gives to an operation, if it does, is an ordinary body. -/
def Deed.GivesBodies (d : Deed σ) : Prop :=
  ∀ key implementation, d.settles? key = some (some implementation) → implementation.IsPlain

/-- **As long as nothing is given away that was kept**, operations are given ordinary bodies. -/
theorem Deed.givesBodies {d : Deed σ} (h : d.givesKept = false) : d.GivesBodies := by
  intro key implementation hs
  rcases Deed.settled_cases hs with ⟨body, rfl⟩ | ⟨hkept, -⟩
  · trivial
  · exact absurd (h.symm.trans hkept) Bool.false_ne_true

/-- An implementation that a call of an operation would have run at some time. -/
def History.StoodIn (history : List (Deed σ)) (key : Key) (implementation : Implementation σ) :
    Prop :=
  ∃ d ∈ history, d.before.table.lookup key = .ok implementation

/-- **A system in which trampolines are around ordinary bodies**, with the history that led to
it. -/
structure History.Shallow (history : List (Deed σ)) (s : System σ) : Prop where
  /-- Nothing stands between owners and bases. -/
  sound : s.table.Sound
  /-- The bases of operations are ordinary bodies. -/
  base : ∀ key implementation, s.table.base? key = some implementation → implementation.IsPlain
  /-- What somebody kept has one trampoline at most, and one that stood in the slot of the
  operation of its interceptor. -/
  kept : ∀ implementation ∈ s.kept, implementation.IsShallow ∧
    ∀ owner covered, implementation = .trampoline owner covered →
      StoodIn history owner.key implementation

/-- Where the implementation that was found for a call stood in the table: in the slot of the
operation called, or in that of the operation under which it was kept. -/
def Deed.FoundUnder (history : List (Deed σ)) (callee : Invocation) (d : Deed σ) (key : Key)
    (implementation : Implementation σ) : Prop :=
  (d.action = .lookup callee.key → key = callee.key) ∧
    ∀ number, d.action = .kept number → History.StoodIn history key implementation

namespace History.Shallow

variable {s : System σ} {history : List (Deed σ)}

theorem mono (h : Shallow history s) {longer : List (Deed σ)} (hsub : history ⊆ longer) :
    Shallow longer s where
  sound := h.sound
  base := h.base
  kept implementation hmem := by
    obtain ⟨hshallow, hstood⟩ := h.kept implementation hmem
    refine ⟨hshallow, fun owner covered he => ?_⟩
    obtain ⟨d, hd, hl⟩ := hstood owner covered he
    exact ⟨d, hsub hd, hl⟩

theorem start (clock : Clock) (memory : σ) : Shallow [] (System.start clock memory) where
  sound := Table.sound_empty
  base key implementation h := by cases h
  kept implementation h := absurd h List.not_mem_nil

/-- Whatever is looked up has one trampoline at most, which is that of an interceptor for the
operation. -/
theorem lookup (h : Shallow history s) {key : Key} {implementation : Implementation σ}
    (hl : s.table.lookup key = .ok implementation) :
    implementation.IsShallow ∧
      ∀ owner covered, implementation = .trampoline owner covered → owner.key = key := by
  rw [Table.lookup] at hl
  split at hl
  · next slot hf =>
    obtain rfl := Except.ok.inj hl
    have hbase : slot.base.IsPlain := h.base key slot.base (by rw [Table.base?, hf]; rfl)
    cases h.sound key slot hf with
    | free given =>
      refine ⟨hbase.isShallow, fun owner covered he => ?_⟩
      rw [Slot.base_free] at hbase
      rw [Slot.implementation_free] at he
      exact (he ▸ hbase : (Implementation.trampoline owner covered).IsPlain).elim
    | intercepted given owner forKey =>
      refine ⟨hbase, fun owner' covered he => ?_⟩
      obtain ⟨rfl, -⟩ := Implementation.trampoline.inj he
      exact forKey
  · cases hl

/-- **Whatever is found for a call has one trampoline at most**, which is that of an interceptor
for the operation under which it was found. -/
theorem finds {d : Deed σ} (h : Shallow history d.before) {callee : Invocation}
    {implementation : Implementation σ} (hfinds : d.Finds callee implementation) :
    implementation.IsShallow ∧ ∀ owner covered, implementation = .trampoline owner covered →
      d.FoundUnder history callee owner.key implementation := by
  cases hfinds with
  | lookup hl =>
    obtain ⟨hshallow, hkey⟩ := h.lookup hl
    refine ⟨hshallow, fun owner covered he => ⟨fun _ => hkey owner covered he, fun _ hk => ?_⟩⟩
    cases hk
  | kept s number =>
    rcases s.keptImplementation_cases number with ⟨body, hbody⟩ | hmem
    · rw [hbody]
      exact ⟨trivial, fun owner covered he => by cases he⟩
    · obtain ⟨hshallow, hstood⟩ := h.kept _ hmem
      exact ⟨hshallow, fun owner covered he =>
        ⟨fun hl => (by cases hl), fun _ _ => hstood owner covered he⟩⟩

/-- One more deed that gives ordinary bodies only. -/
theorem deed {d : Deed σ} (h : Shallow history d.before) (hgives : d.GivesBodies) :
    Shallow (history ++ [d]) d.after where
  sound := d.change.sound h.sound
  base key implementation hbase := by
    rw [d.change.base?_eq] at hbase
    rcases hs : d.settles? key with _ | settled
    · rw [hs] at hbase
      exact h.base key implementation hbase
    · rw [hs] at hbase
      have hsettled : settled = some implementation := hbase
      exact hgives key implementation (hsettled ▸ hs)
  kept implementation hmem := by
    rcases Deed.mem_kept_or_lookup hmem with hkept | ⟨key, hl⟩
    · exact (h.mono (List.subset_append_left history [d])).kept implementation hkept
    · obtain ⟨hshallow, hkey⟩ := h.lookup hl
      refine ⟨hshallow, fun owner covered he => ⟨d, by simp, ?_⟩⟩
      rw [hkey owner covered he]
      exact hl

/-- **Every moment of a history that gives ordinary bodies only.** -/
theorem follow {clock : Clock} {memory : σ} {threads : List (Thread σ α)} {turns : List Nat}
    (hgives : ∀ d ∈ (⟨threads, .start clock memory⟩ : Crew σ α).history turns, d.GivesBodies) :
    let crew : Crew σ α := ⟨threads, .start clock memory⟩
    Shallow (crew.history turns) (crew.follow turns).system := by
  intro crew
  refine Crew.start_induction
    (fun history s => (∀ d ∈ history, d.GivesBodies) → Shallow history s) ?_
    (fun _ => start clock memory) threads turns hgives
  intro history d ih hall
  have hbefore := ih fun earlier hmem => hall earlier (List.mem_append_left _ hmem)
  exact hbefore.deed (hall d (List.mem_append_right _ (List.mem_singleton_self d)))

end History.Shallow

/-! ### Calls and passages -/

namespace Story

/-- The passage that a call goes through first, if what was found for it is a trampoline. -/
def passage? : Story σ → Option (Story σ)
  | .call _ [_, .passage owner covered entered ended within] =>
    some (.passage owner covered entered ended within)
  | _ => none

/-- A story that is not a passage, or the passage through a trampoline around an ordinary body. -/
def IsShallow : Story σ → Prop
  | .passage _ covered _ _ _ => covered.IsPlain
  | _ => True

theorem isPassage_of_told {implementation : Implementation σ} (h : implementation.IsPlain)
    {call : Invocation} {ended : Except Fault Outcome} {within : List (Story σ)} :
    (implementation.told call ended within).isPassage = false := by
  cases implementation with
  | plain body => rfl
  | trampoline owner covered => exact h.elim

end Story

/-- **Around an ordinary body there is no other passage.** -/
theorem Passes.isPassage_eq_false {owner : Handle} {covered : Implementation σ}
    {call : Invocation} {stories : List (Story σ)} {ended : Except Fault Outcome}
    (hcovered : covered.IsPlain) (h : Passes owner covered call stories ended) :
    ∀ story ∈ stories, story.isPassage = false := by
  intro story hmem
  rcases h.eq_told_or story hmem with hnot | ⟨entered, ended', inside, rfl⟩
  · exact hnot
  · exact Story.isPassage_of_told hcovered

namespace Story

theorem passage?_call_told (callee entered : Invocation) (found : Story σ)
    (implementation : Implementation σ) (ended : Except Fault Outcome) (within : List (Story σ)) :
    (Story.call callee [found, implementation.told entered ended within]).passage? =
      if (implementation.told entered ended within).isPassage then
        some (implementation.told entered ended within) else none := by
  cases implementation with
  | plain body => rfl
  | trampoline owner covered => rfl

theorem parts_call_pair (callee : Invocation) (d : Deed σ) (told : Story σ) :
    (Story.call callee [.deed d, told]).parts =
      .call callee [.deed d, told] :: .deed d :: told.parts := by
  simp [parts, partsAll]

/-- In stories side by side, the passages are those of each of them. -/
theorem filter_partsAll {stories : List (Story σ)}
    (h : ∀ story ∈ stories, story.parts.filter isPassage =
      (if story.isPassage then [story] else []) ++ story.parts.filterMap passage?)
    (hnone : ∀ story ∈ stories, story.isPassage = false) :
    (partsAll stories).filter isPassage = (partsAll stories).filterMap passage? := by
  rw [partsAll_eq_flatMap, List.filter_flatMap, List.filterMap_flatMap]
  refine List.flatMap_congr fun story hmem => ?_
  rw [h story hmem, hnone story hmem]
  rfl

/-- **The passages of a story are those of its calls**, one each and in the same order, if
whatever is found has one trampoline at most. -/
theorem Orderly.passages_eq {depth : Nat} {story : Story σ} (h : story.Orderly depth)
    (hstory : story.IsShallow)
    (hfinds : ∀ d ∈ story.deeds, ∀ (callee : Invocation) (implementation : Implementation σ),
      d.Finds callee implementation → implementation.IsShallow) :
    story.parts.filter isPassage =
      (if story.isPassage then [story] else []) ++ story.parts.filterMap passage? := by
  -- what is done in one of several stories is done in what holds them
  have hinside {within : List (Story σ)} (hfinds : ∀ d ∈ deedsAll within,
      ∀ (callee : Invocation) (implementation : Implementation σ),
        d.Finds callee implementation → implementation.IsShallow) :
      ∀ story ∈ within, ∀ d ∈ story.deeds, ∀ (callee : Invocation)
        (implementation : Implementation σ), d.Finds callee implementation →
          implementation.IsShallow :=
    fun story hmem d hd => hfinds d ((deeds_sublist_deedsAll hmem).subset hd)
  induction h with
  | deed depth d => rfl
  | @body depth role program entered ended within does steps inside ih =>
    have hsteps : ∀ story ∈ within, story.isPassage = false ∧ story.IsShallow := by
      intro story hmem
      cases steps story hmem with
      | own h => exact ⟨rfl, trivial⟩
      | call callee within => exact ⟨rfl, trivial⟩
    exact filter_partsAll (fun story hmem => ih story hmem (hsteps story hmem).2
      (hinside hfinds story hmem)) fun story hmem => (hsteps story hmem).1
  | @call outer callee _ calls inside ih =>
    cases calls with
    | undefined h => rfl
    | tooDeep hd => rfl
    | @found depth d implementation hd ended within =>
      have hshallow : implementation.IsShallow := hfinds d (List.mem_cons_self ..) _ _ hd
      have htold : (implementation.told callee ended within).IsShallow := by
        cases implementation with
        | plain body => trivial
        | trampoline owner covered => exact hshallow
      have hparts := ih _ (by simp) htold (hinside hfinds _ (by simp))
      have hpassage := passage?_call_told callee callee (.deed d) implementation ended within
      generalize implementation.told callee ended within = told at hparts hpassage ⊢
      have hdeed : (Story.deed d).passage? = none := rfl
      rw [parts_call_pair, List.filter_cons_of_neg Bool.noConfusion,
        List.filter_cons_of_neg Bool.noConfusion, hparts, List.filterMap_cons, hpassage,
        List.filterMap_cons_none hdeed]
      cases told.isPassage with
      | false => rfl
      | true => rfl
  | @passage depth owner covered entered ended within passes inside ih =>
    have hnone := passes.isPassage_eq_false hstory
    have hwithin : ∀ story ∈ within, story.IsShallow := by
      intro story hmem
      cases story with
      | passage => exact absurd (hnone _ hmem) Bool.noConfusion
      | _ => trivial
    have hrest := filter_partsAll (fun story hmem => ih story hmem (hwithin story hmem)
      (hinside hfinds story hmem)) hnone
    rw [parts, List.filter_cons_of_pos rfl, hrest]
    rfl

/-! ### The numbers of records -/

/-- Numbers that increase with the records that are made. -/
def Increasing (deeds : List (Deed σ)) : Prop :=
  ((History.records deeds).map Record.callId).Pairwise (· < ·)

theorem Increasing.sublist {deeds part : List (Deed σ)} (h : Increasing deeds)
    (hpart : part.Sublist deeds) : Increasing part :=
  List.Pairwise.sublist ((hpart.filterMap Deed.record?).map Record.callId) h

/-- **Where a record stands among those of the calls inside**: whatever is made until the segment
has ended has a smaller number, and whatever is made after that a larger one. -/
theorem Recorded.callId_lt {owner : Handle} {within first last : List (Story σ)} {record : Record}
    (h : Recorded owner within first record last) (hids : Increasing (deedsAll within)) :
    (∀ earlier ∈ History.records (deedsAll first), earlier.callId < record.callId) ∧
      ∀ later ∈ History.records (deedsAll last), record.callId < later.callId := by
  obtain ⟨before, segment, stop, made, -, rfl, -, -, -, hmade⟩ := h.within_eq
  have hrecords : History.records (deedsAll (first ++ .deed made :: last)) =
      History.records (deedsAll first) ++ record :: History.records (deedsAll last) := by
    have hdeeds : deedsAll (first ++ .deed made :: last) =
        deedsAll first ++ made :: deedsAll last := deedsAll_append first _
    rw [hdeeds, History.records, List.filterMap_append, List.filterMap_cons, hmade]
    rfl
  rw [Increasing, hrecords, List.map_append, List.pairwise_append] at hids
  obtain ⟨-, hlast, hfirst⟩ := hids
  refine ⟨fun earlier hmem => ?_, fun later hmem => ?_⟩
  · exact hfirst _ (List.mem_map_of_mem hmem) _ (List.mem_cons_self ..)
  · exact (List.pairwise_cons.mp hlast).1 _ (List.mem_map_of_mem hmem)

/-- **A story in which each call that completes leaves one record**, and nothing else leaves
any. -/
structure RecordsOnce (history doings : List (Deed σ)) (story : Story σ) : Prop where
  /-- The passages that complete are listed in the order in which their segments end. -/
  completions_perm : story.completions.Perm (story.parts.filter completes)
  /-- Each of them makes one record. -/
  one_each : ∀ passage ∈ story.completions, ∃ record, passage.ownRecords = [record]
  /-- These are the records that were made, in order. -/
  records_eq : story.completions.flatMap ownRecords = History.records doings
  /-- Their numbers increase. -/
  increasing : ((story.completions.flatMap ownRecords).map Record.callId).Pairwise (· < ·)
  /-- Whatever does not complete makes no record, and hands none on. -/
  none_else : ∀ part ∈ story.parts, part.completes = false →
    part.ownRecords = [] ∧ part.ownHandings = []
  /-- The passages are those of the calls, one each at most. -/
  passages_eq : story.parts.filter isPassage = story.parts.filterMap passage?
  /-- A call that goes through an interceptor does so with nothing changed. The interceptor is
  around an ordinary body, and it is for the operation called, or for that under which the
  implementation was kept. -/
  key_eq : ∀ (callee entered : Invocation) (found : Deed σ) (owner : Handle)
    (covered : Implementation σ) (ended : Except Fault Outcome) (within : List (Story σ)),
    .call callee [.deed found, .passage owner covered entered ended within] ∈ story.parts →
      entered = callee ∧ covered.IsPlain ∧
        found.FoundUnder history callee owner.key (.trampoline owner covered)
  /-- A passage that completes makes its record right after its segment has ended, and hands it
  on once: to the after-hook among the hooks that it found, or to nobody if there was none. The
  calls made until then have smaller numbers than the record, and those made later larger ones. -/
  recorded : ∀ (owner : Handle) (covered : Implementation σ) (entered : Invocation)
    (ended : Except Fault Outcome) (within : List (Story σ)),
    .passage owner covered entered ended within ∈ story.parts →
    (Story.passage owner covered entered ended within).completes = true →
    ∃ first record last, Recorded owner within first record last ∧ record.key = owner.key ∧
      (∃ snapshot left ended', .deed ⟨snapshot, .hooks owner⟩ ∈ first ∧
        AfterStage owner (snapshot.hooks owner) record left last ended' ∧
        within.filterMap handed? =
          if (snapshot.hooks owner).after.isSome then [record] else []) ∧
      (∀ earlier ∈ History.records (deedsAll first), earlier.callId < record.callId) ∧
      ∀ later ∈ History.records (deedsAll last), record.callId < later.callId

/-- **Stories of what was done to shallow systems** leave one record for each call that
completes. -/
theorem Orderly.recordsOnce {depth : Nat} {story : Story σ} (h : story.Orderly depth)
    (hbody : story.record? = none ∧ story.isPassage = false) (hids : Increasing story.deeds)
    {history : List (Deed σ)} (hshallow : ∀ d ∈ story.deeds, History.Shallow history d.before) :
    story.RecordsOnce history story.deeds where
  completions_perm := h.completions_perm
  one_each passage hmem := by
    have hpart := (h.completions_perm.mem_iff).mp hmem
    obtain ⟨hpart, hcompletes⟩ := List.mem_filter.mp hpart
    obtain ⟨⟨inner, horderly⟩, -⟩ := h.of_mem_parts hpart
    cases horderly with
    | passage passes inside =>
      obtain ⟨first, record, last, hrecorded⟩ := (completes_iff passes).mp hcompletes
      exact ⟨record, hrecorded.filterMap_record?⟩
    | _ => cases hcompletes
  records_eq := by rw [h.records_deeds, hbody.1]; rfl
  increasing := by
    have hrecords := h.records_deeds
    rw [hbody.1] at hrecords
    rw [Increasing, hrecords] at hids
    exact hids
  none_else part hmem hnot := by
    obtain ⟨⟨inner, horderly⟩, -⟩ := h.of_mem_parts hmem
    exact horderly.isQuiet_of_not_completes hnot
  passages_eq := by
    have hstory : story.IsShallow := by
      cases story with
      | passage => exact absurd hbody.2 Bool.noConfusion
      | _ => trivial
    rw [h.passages_eq hstory fun d hd _ _ hfinds => ((hshallow d hd).finds hfinds).1, hbody.2]
    rfl
  key_eq callee entered found owner covered ended within hmem := by
    obtain ⟨⟨inner, horderly⟩, hsublist⟩ := h.of_mem_parts hmem
    have hfound : History.Shallow history found.before :=
      hshallow found (hsublist.subset (List.mem_cons_self ..))
    cases horderly with
    | call calls inside =>
      generalize hwithin : [Story.deed found, .passage owner covered entered ended within] = all
        at calls
      cases calls with
      | undefined h => cases hwithin
      | tooDeep hd => cases hwithin
      | @found depth d implementation hd ended' within' =>
        obtain ⟨hd', htold⟩ := List.cons.inj hwithin
        obtain rfl := Story.deed.inj hd'
        have htold := (List.cons.inj htold).1
        cases implementation with
        | plain body => cases htold
        | trampoline owner' covered' =>
          obtain ⟨rfl, rfl, rfl, -, -⟩ := Story.passage.inj htold
          obtain ⟨hplain, hunder⟩ := hfound.finds hd
          exact ⟨rfl, hplain, hunder owner covered rfl⟩
  recorded owner covered entered ended within hmem hcompletes := by
    obtain ⟨⟨inner, horderly⟩, hsublist⟩ := h.of_mem_parts hmem
    cases horderly with
    | passage passes inside =>
      obtain ⟨first, record, last, hrecorded⟩ := (completes_iff passes).mp hcompletes
      exact ⟨first, record, last, hrecorded, hrecorded.key_eq, hrecorded.filterMap_handed?,
        hrecorded.callId_lt (hids.sublist hsublist)⟩

end Story

/-! ### Programs side by side -/

/-- **Each call that completes leaves one record, and no other does.** Let any number of programs
run side by side on a system that starts with nothing, taking turns in any order, and let
operations be given ordinary bodies only. Then the records that were made are numbered
1, 2, 3, … in the order in which they were made, and each of them was made by one of the
programs. For each program that has ended there is a story of what it did, and every story of it
says of records (`Story.RecordsOnce`):

* the records that were made are those of the passages that complete, one each, in the order in
  which their segments ended, and with increasing numbers;
* whatever does not complete – a call whose interceptor was not enabled, that was stopped by its
  before-hook, or whose segment failed – leaves no record;
* the passages are those of the calls, one each at most, and the interceptor of a passage is for
  the operation that was called, or, where an implementation was called that somebody had kept,
  for the operation under which it was kept;
* the record of a passage is for the operation of its interceptor, it is handed on once, to the
  after-hook among the hooks that the call found, or to nobody if there was none, and it has a
  larger number than the records of the calls made before its segment ended, and a smaller one
  than those of the calls made later. -/
theorem recording_of_history (clock : Clock) (memory : σ) (programs : List (Nat × Program σ))
    (turns : List Nat)
    (hgives : ∀ d ∈ (Crew.ofPrograms clock memory programs).history turns, d.GivesBodies) :
    let crew := Crew.ofPrograms clock memory programs
    let records := History.records (crew.history turns)
    (records.map Record.callId = List.range' 1 records.length ∧
        (crew.history turns).Perm ((List.range programs.length).flatMap fun member =>
          crew.doings member turns)) ∧
      ∀ (member depth : Nat) (p : Program σ) (result : Except Fault (Except Failure Value)),
        programs[member]? = some (depth, p) → (crew.follow turns).ended? member = some result →
          (∃ story, p.IsTold depth (crew.doings member turns) story) ∧
            ∀ story, p.IsTold depth (crew.doings member turns) story →
              story.RecordsOnce (crew.history turns) (crew.doings member turns) := by
  intro crew records
  have hids : records.map Record.callId = List.range' 1 records.length :=
    Crew.callIds_history clock memory _ turns
  have hperm := crew.history_perm turns
  have hlength : crew.threads.length = programs.length := List.length_map _
  rw [hlength] at hperm
  refine ⟨⟨hids, hperm⟩, fun member depth p result hp hended =>
    ⟨Crew.exists_isTold hp hended, fun story htold => ?_⟩⟩
  have hincreasing : Story.Increasing (crew.history turns) := by
    have hrange : (records.map Record.callId).Pairwise (· < ·) :=
      hids ▸ List.pairwise_lt_range'
    exact hrange
  have hshallow : ∀ d ∈ story.deeds, History.Shallow (crew.history turns) d.before := by
    intro d hd
    rw [htold.deeds_eq] at hd
    obtain ⟨moment, -, hbefore⟩ := Crew.exists_doneAt hd
    have hsub := crew.history_take_subset turns moment
    have hmoment := History.Shallow.follow fun d hd => hgives d (hsub hd)
    rw [hbefore]
    exact hmoment.mono hsub
  have hdoings : Story.Increasing story.deeds := by
    rw [htold.deeds_eq]
    exact hincreasing.sublist (crew.doings_sublist member turns)
  obtain ⟨ended, within, rfl⟩ := htold.whole
  have honce := htold.orderly.recordsOnce ⟨rfl, rfl⟩ hdoings hshallow
  rwa [htold.deeds_eq] at honce

namespace Desk

/-- An operation of a type with two of them. -/
def key (operation : String) : Key :=
  .ofType "Desk" operation

/-- Calls the operation that calls the other one. -/
def file : Invocation :=
  ⟨.ofType, key "file", []⟩

/-- Two operations, each with an interceptor, of which one calls the other. They are called
twice, the second time with the outer interceptor disabled. -/
def day : Program Unit :=
  .request (.define (key "stamp")) (fun _ => .done .null) fun _ =>
    .request (.define (key "file")) (fun _ => .callThen ⟨.ofType, key "stamp", []⟩ .done) fun _ =>
      .request (.create (key "stamp")) Empty.elim fun inner =>
        .request (.install inner) Empty.elim fun _ =>
          .request (.create (key "file")) Empty.elim fun outer =>
            .request (.install outer) Empty.elim fun _ =>
              .callThen file fun _ =>
                .request (.setEnabled outer false) Empty.elim fun _ => .callThen file .done

/-- The program on a system with nothing in it. -/
def crew : Crew Unit (Except Failure Value) :=
  .ofPrograms (fun _ => .atEpoch) () [(3, day)]

/-- The turns of the only program. -/
def turns : List Nat :=
  List.replicate 32 0

/-- Three of the four calls leave a record, and the inner one comes first. -/
theorem recording_of_day :
    (∀ d ∈ crew.history turns, d.GivesBodies) ∧
      ∃ story, day.IsTold 3 (crew.doings 0 turns) story ∧
        story.RecordsOnce (crew.history turns) (crew.doings 0 turns) ∧
        (story.completions.flatMap Story.ownRecords).map (fun record =>
          (record.callId, record.key)) = [(1, key "stamp"), (2, key "file"), (3, key "stamp")] := by
  have hkept : ((crew.history turns).all fun d => !d.givesKept) = true := by rfl
  have hgives : ∀ d ∈ crew.history turns, d.GivesBodies := fun d hd =>
    Deed.givesBodies (by simpa using List.all_eq_true.mp hkept d hd)
  have hended : (crew.follow turns).ended? 0 = some (.ok (.ok .null)) := rfl
  obtain ⟨-, hstories⟩ := recording_of_history (fun _ => .atEpoch) () [(3, day)] turns hgives
  obtain ⟨⟨story, htold⟩, honce⟩ := hstories 0 3 day _ rfl hended
  have hrecords := honce story htold
  refine ⟨hgives, story, htold, hrecords, ?_⟩
  rw [hrecords.records_eq]
  rfl

end Desk

end Interception
