import Interception.Proofs.Numbering
import Interception.Proofs.Stories
import Mathlib.Data.List.Perm.Basic

/-!
# Which calls leave a record

A call that goes through an enabled interceptor leaves a record just when its segment ended
well. This is read off the story of a thread: `Story.completes` says of a passage that its
interceptor was enabled when it was entered and that its segment ended well, and
`Story.completions` lists the passages for which this is so, in the order in which their
segments ended.

What a passage looks like that completes is said once (`Story.Recorded`): first comes
everything up to the end of the segment, then the record is made, and then it is handed on.
Any other passage makes no record (`Passes.recorded_or_quiet`). An induction over the story
carries this to all that a thread did: the records that were made are those of the
completions, in order (`Story.Orderly.records_deeds`).
-/

namespace Interception

variable {σ : Type}

/-! ### Records in stories -/

namespace Story

/-- The record that a story is the making of. -/
def record? : Story σ → Option Record
  | .deed d => d.record?
  | _ => none

/-- The record that a story is the handing on of: to a collector, or to a hook that runs after
a call. -/
def handed? : Story σ → Option Record
  | .deed ⟨_, .deliver _ record _⟩ => some record
  | .body (.after record) _ _ _ _ => some record
  | _ => none

/-- What stands directly in a story. -/
def inside : Story σ → List (Story σ)
  | .deed _ => []
  | .body _ _ _ _ within | .call _ within | .passage _ _ _ _ within => within

/-- The records that are made directly in a story, those of the calls in it apart. -/
def ownRecords (story : Story σ) : List Record :=
  story.inside.filterMap record?

/-- The records that are handed on directly in a story. -/
def ownHandings (story : Story σ) : List Record :=
  story.inside.filterMap handed?

/-- Whether what a passage starts with is a look at an interceptor that is enabled. -/
def startsEnabled : List (Story σ) → Bool
  | .deed ⟨s, .enabled owner⟩ :: _ => s.enabled owner
  | _ => false

/-- Whether a story that stands in a passage is a segment that ended well. -/
def isGoodSegment : Story σ → Bool
  | .body .implementation _ _ ended _ | .body .replace _ _ ended _ | .passage _ _ _ ended _ =>
    (Outcome.success? ended).isSome
  | _ => false

/-- **Whether a story is a passage that completes**: its interceptor was enabled when it was
entered, and its segment ended well. -/
def completes : Story σ → Bool
  | .passage _ _ _ _ within => startsEnabled within && within.any isGoodSegment
  | _ => false

mutual

/-- **The passages that complete**, in the order in which their segments end: each of them comes
after what completes in its segment or before, and before what completes after it. -/
def completions : Story σ → List (Story σ)
  | .deed _ => []
  | .body _ _ _ _ within => completionsAll [] within
  | .call _ within => completionsAll [] within
  | .passage owner covered entered ended within =>
    completionsAll
      (if startsEnabled within then [.passage owner covered entered ended within] else []) within

/-- The passages that complete in several stories, where a segment among them that ends well
completes a given one. -/
def completionsAll (host : List (Story σ)) : List (Story σ) → List (Story σ)
  | [] => []
  | story :: rest =>
    story.completions ++ (if story.isGoodSegment then host else []) ++ completionsAll host rest

end

theorem completionsAll_eq_flatMap (host stories : List (Story σ)) :
    completionsAll host stories = stories.flatMap fun story =>
      story.completions ++ if story.isGoodSegment then host else [] := by
  induction stories with
  | nil => rfl
  | cons story rest ih => rw [completionsAll, List.flatMap_cons, ih]

/-- Without a segment that ends well, nothing is completed but what completes inside. -/
theorem completionsAll_of_quiet {host stories : List (Story σ)}
    (h : host = [] ∨ ∀ story ∈ stories, story.isGoodSegment = false) :
    completionsAll host stories = stories.flatMap completions := by
  rw [completionsAll_eq_flatMap]
  refine List.flatMap_congr fun story hmem => ?_
  rcases h with rfl | h
  · simp
  · simp [h story hmem]

end Story

/-! ### What a passage does about its record -/

namespace Story

/-- A story that is neither the making of a record nor the handing on of one. -/
def IsQuiet (story : Story σ) : Prop :=
  story.record? = none ∧ story.handed? = none

/-- Stories that are quiet, and of which none is a segment that ended well. -/
def Quiet (stories : List (Story σ)) : Prop :=
  ∀ story ∈ stories, story.IsQuiet ∧ story.isGoodSegment = false

theorem Quiet.nil : Quiet ([] : List (Story σ)) := fun _ hmem =>
  absurd hmem List.not_mem_nil

theorem Quiet.cons {story : Story σ} {rest : List (Story σ)} (hquiet : story.IsQuiet)
    (hsegment : story.isGoodSegment = false) (hrest : Quiet rest) : Quiet (story :: rest) :=
  List.forall_mem_cons.mpr ⟨⟨hquiet, hsegment⟩, hrest⟩

theorem Quiet.append {stories rest : List (Story σ)} (h : Quiet stories) (hrest : Quiet rest) :
    Quiet (stories ++ rest) := fun story hmem =>
  (List.mem_append.mp hmem).elim (h story) (hrest story)

theorem ownRecords_eq_nil {story : Story σ} (h : ∀ part ∈ story.inside, part.IsQuiet) :
    story.ownRecords = [] :=
  List.filterMap_eq_nil_iff.mpr fun part hmem => (h part hmem).1

theorem ownHandings_eq_nil {story : Story σ} (h : ∀ part ∈ story.inside, part.IsQuiet) :
    story.ownHandings = [] :=
  List.filterMap_eq_nil_iff.mpr fun part hmem => (h part hmem).2

end Story

/-- **A passage that completes**: first comes all that happens until its segment has ended, then
its record is made, and what follows is the after stage with this record. -/
structure Story.Recorded (owner : Handle) (within first : List (Story σ)) (record : Record)
    (last : List (Story σ)) : Prop where
  /-- The interceptor is found enabled. -/
  enabled : startsEnabled within = true
  /-- The passage is made up of these parts: the segment comes right before its end is read from
  the clock, and the record right after that. -/
  within_eq : ∃ (before : List (Story σ)) (segment : Story σ) (stop : System σ) (made : Deed σ),
    first = before ++ [segment, .deed ⟨stop, .readClock⟩] ∧ within = first ++ .deed made :: last ∧
      Quiet before ∧ segment.IsQuiet ∧ segment.isGoodSegment = true ∧ made.record? = some record
  /-- The record is for the operation of the interceptor. -/
  key_eq : record.key = owner.key
  /-- The record is handed to whatever the hooks say that were found. -/
  handed : ∃ (snapshot : System σ) (left : Invocation) (ended : Except Fault Outcome),
    .deed ⟨snapshot, .hooks owner⟩ ∈ first ∧
      AfterStage owner (snapshot.hooks owner) record left last ended

/-- Whether a stage that is a hook ends well is a matter of the body. -/
theorem Outcome.isSome_success?_map {ended : Except Fault Outcome} {owner : Handle}
    {slot : HookSlot} : (success? (ended.map (Outcome.ofHook owner slot))).isSome =
      (success? ended).isSome := by
  rcases ended with fault | ⟨failure | value, call⟩
  · rfl
  · rfl
  · rfl

namespace Implementation

variable (implementation : Implementation σ) (call : Invocation) (ended : Except Fault Outcome)
  (within : List (Story σ))

theorem isQuiet_told : (implementation.told call ended within).IsQuiet := by
  cases implementation with
  | plain body => exact ⟨rfl, rfl⟩
  | trampoline owner covered => exact ⟨rfl, rfl⟩

theorem isGoodSegment_told :
    (implementation.told call ended within).isGoodSegment = (Outcome.success? ended).isSome := by
  cases implementation with
  | plain body => rfl
  | trampoline owner covered => rfl

end Implementation

section Stages

variable {owner : Handle} {hooks : Hooks σ} {call : Invocation} {ended : Except Fault Outcome}

theorem BeforeStage.quiet {stories : List (Story σ)}
    (h : BeforeStage owner hooks call stories ended) : Story.Quiet stories := by
  cases h with
  | skipped h => exact .nil
  | hook h ended within => exact .cons ⟨rfl, rfl⟩ rfl .nil

/-- In the after stage no record is made, and there is no segment. -/
theorem AfterStage.record?_eq_none {record : Record} {stories : List (Story σ)}
    (h : AfterStage owner hooks record call stories ended) :
    ∀ story ∈ stories, story.record? = none ∧ story.isGoodSegment = false := by
  cases h with
  | skipped h => exact fun story hmem => absurd hmem List.not_mem_nil
  | collect h s => exact List.forall_mem_singleton.mpr ⟨rfl, rfl⟩
  | hook h ended within => exact List.forall_mem_singleton.mpr ⟨rfl, rfl⟩

theorem SegmentStage.isGoodSegment_eq {covered : Implementation σ} {story : Story σ}
    (h : SegmentStage owner hooks covered call story ended) :
    story.IsQuiet ∧ story.isGoodSegment = (Outcome.success? ended).isSome := by
  cases h with
  | hook h ended within => exact ⟨⟨rfl, rfl⟩, Outcome.isSome_success?_map.symm⟩
  | covered h ended within => exact ⟨covered.isQuiet_told .., covered.isGoodSegment_told ..⟩

/-- **A record is handed on once**, if there is an after-hook, and otherwise to nobody. -/
theorem AfterStage.filterMap_handed? {record : Record} {stories : List (Story σ)}
    (h : AfterStage owner hooks record call stories ended) :
    stories.filterMap Story.handed? = if hooks.after.isSome then [record] else [] := by
  cases h with
  | skipped h => simp [h]
  | collect h s => simp [h, Story.handed?]
  | hook h ended within => simp [h, Story.handed?]

end Stages

section Passages

open Story

variable {owner : Handle} {covered : Implementation σ} {call : Invocation}

/-- Stages after which there is no record are quiet. -/
theorem Stages.quiet_or_recorded {hooks : Hooks σ} {stories : List (Story σ)}
    {ended : Except Fault Outcome} (h : Stages owner hooks covered call stories ended) :
    Quiet stories ∨
      ∃ (before : List (Story σ)) (segment : Story σ) (stop : System σ) (made : Deed σ)
        (record : Record) (left : Invocation) (last : List (Story σ))
        (ended : Except Fault Outcome),
        stories = before ++ [segment, .deed ⟨stop, .readClock⟩] ++ .deed made :: last ∧
          Quiet before ∧ segment.IsQuiet ∧ segment.isGoodSegment = true ∧
          made.record? = some record ∧ record.key = owner.key ∧
          AfterStage owner hooks record left last ended := by
  cases h with
  | stopped hbefore hended => exact .inl hbefore.quiet
  | failed start hbefore hsegment hended =>
    obtain ⟨hquiet, hgood⟩ := hsegment.isGoodSegment_eq
    rw [hended] at hgood
    exact .inl (hbefore.quiet.append (.cons ⟨rfl, rfl⟩ rfl (.cons hquiet hgood .nil)))
  | @recorded before last segment ignored value entered left ended start stop made hbefore
      hsegment hafter =>
    obtain ⟨hquiet, hgood⟩ := hsegment.isGoodSegment_eq
    refine .inr ⟨before ++ [.deed ⟨start, .readClock⟩], segment, stop, ⟨made, .record owner.key
      start.readClock.1 stop.readClock.1 hooks.replace.isSome⟩, _, left, last, _, ?_,
      hbefore.quiet.append (.cons ⟨rfl, rfl⟩ rfl .nil), hquiet, hgood, rfl, rfl, hafter⟩
    simp

/-- **A passage completes, or it makes no record and hands none on.** -/
theorem Passes.recorded_or_quiet {within : List (Story σ)} {ended : Except Fault Outcome}
    (h : Passes owner covered call within ended) :
    (∃ first record last, Recorded owner within first record last) ∨
      (∀ story ∈ within, story.IsQuiet) ∧
        (startsEnabled within = false ∨ ∀ story ∈ within, story.isGoodSegment = false) := by
  cases h with
  | bypassed henabled ended inside =>
    refine .inr ⟨List.forall_mem_cons.mpr ⟨⟨rfl, rfl⟩, ?_⟩, .inl henabled⟩
    exact List.forall_mem_singleton.mpr (covered.isQuiet_told ..)
  | @routed entry henabled snapshot stories ended hstages =>
    -- the two looks at the interceptor make no record either
    have hlooks : Quiet [.deed ⟨entry, .enabled owner⟩, .deed ⟨snapshot, .hooks owner⟩] :=
      .cons ⟨rfl, rfl⟩ rfl (.cons ⟨rfl, rfl⟩ rfl .nil)
    rcases hstages.quiet_or_recorded with hquiet |
      ⟨before, segment, stop, made, record, left, last, ended, rfl, hbefore, hsegment, hgood,
        hmade, hkey, hafter⟩
    · have hall := hlooks.append hquiet
      exact .inr ⟨fun story hmem => (hall story hmem).1,
        .inr fun story hmem => (hall story hmem).2⟩
    · refine .inl ⟨_, record, last, henabled, ⟨_, segment, stop, made, rfl, ?_,
        hlooks.append hbefore, hsegment, hgood, hmade⟩, hkey, ⟨snapshot, left, ended, ?_, hafter⟩⟩
      · simp
      · simp

end Passages

namespace Story

/-- The making of a record is not the handing on of one. -/
theorem handed?_deed_of_record? {d : Deed σ} {record : Record} (h : d.record? = some record) :
    (Story.deed d).handed? = none := by
  obtain ⟨s, action⟩ := d
  cases action with
  | record key start stop replaced => rfl
  | _ => cases h

section Recorded

variable {owner : Handle} {within first last : List (Story σ)} {record : Record}
  (h : Recorded owner within first record last)

include h

/-- What comes before the record is quiet about records. -/
theorem Recorded.isQuiet_first : ∀ story ∈ first, story.IsQuiet := by
  obtain ⟨before, segment, stop, made, rfl, -, hbefore, hsegment, -, -⟩ := h.within_eq
  intro story hmem
  rcases List.mem_append.mp hmem with hmem | hmem
  · exact (hbefore story hmem).1
  · rcases List.mem_pair.mp hmem with rfl | rfl
    · exact hsegment
    · exact ⟨rfl, rfl⟩

/-- What comes after it makes no other, and there is no other segment. -/
theorem Recorded.record?_last :
    ∀ story ∈ last, story.record? = none ∧ story.isGoodSegment = false := by
  obtain ⟨snapshot, left, ended, -, hafter⟩ := h.handed
  exact hafter.record?_eq_none

/-- **A passage that completes makes one record.** -/
theorem Recorded.filterMap_record? : within.filterMap record? = [record] := by
  obtain ⟨before, segment, stop, made, -, rfl, -, -, -, hmade⟩ := h.within_eq
  have hfirst : first.filterMap record? = [] :=
    List.filterMap_eq_nil_iff.mpr fun story hmem => (h.isQuiet_first story hmem).1
  have hlast : last.filterMap record? = [] :=
    List.filterMap_eq_nil_iff.mpr fun story hmem => (h.record?_last story hmem).1
  have hmade' : (Story.deed made).record? = some record := hmade
  rw [List.filterMap_append, List.filterMap_cons, hfirst, hlast, hmade']
  rfl

/-- **It hands this record on once**, to the after-hook among the hooks that it found, or to
nobody if there was none. -/
theorem Recorded.filterMap_handed? :
    ∃ (snapshot : System σ) (left : Invocation) (ended : Except Fault Outcome),
      .deed ⟨snapshot, .hooks owner⟩ ∈ first ∧
        AfterStage owner (snapshot.hooks owner) record left last ended ∧
        within.filterMap handed? =
          if (snapshot.hooks owner).after.isSome then [record] else [] := by
  obtain ⟨snapshot, left, ended, hmem, hafter⟩ := h.handed
  obtain ⟨before, segment, stop, made, -, rfl, -, -, -, hmade⟩ := h.within_eq
  have hfirst : first.filterMap handed? = [] :=
    List.filterMap_eq_nil_iff.mpr fun story hmem => (h.isQuiet_first story hmem).2
  have hmade' : (Story.deed made).handed? = none := handed?_deed_of_record? hmade
  refine ⟨snapshot, left, ended, hmem, hafter, ?_⟩
  rw [List.filterMap_append, List.filterMap_cons, hfirst, hmade', hafter.filterMap_handed?]
  rfl

/-- A passage that completes does so after all that completes before its segment has ended, and
before all that completes later. -/
theorem Recorded.completionsAll_eq (host : List (Story σ)) :
    completionsAll host within =
      first.flatMap completions ++ host ++ last.flatMap completions := by
  obtain ⟨before, segment, stop, made, rfl, rfl, hquiet, -, hgood, -⟩ := h.within_eq
  have hbefore : completionsAll host before = before.flatMap completions :=
    completionsAll_of_quiet (.inr fun story hmem => (hquiet story hmem).2)
  have hlast : completionsAll host last = last.flatMap completions :=
    completionsAll_of_quiet (.inr fun story hmem => (h.record?_last story hmem).2)
  rw [completionsAll_eq_flatMap] at hbefore hlast ⊢
  simp only [List.flatMap_append, List.flatMap_cons, List.flatMap_nil, hbefore, hlast, hgood]
  simp [completions, isGoodSegment]

theorem Recorded.any_isGoodSegment : within.any isGoodSegment = true := by
  obtain ⟨before, segment, stop, made, rfl, rfl, -, -, hgood, -⟩ := h.within_eq
  simp [hgood]

end Recorded

/-- **A passage completes just if it is made up like one with a record.** -/
theorem completes_iff {owner : Handle} {covered : Implementation σ} {entered : Invocation}
    {within : List (Story σ)} {ended : Except Fault Outcome}
    (h : Passes owner covered entered within ended) :
    (Story.passage owner covered entered ended within).completes = true ↔
      ∃ first record last, Recorded owner within first record last := by
  constructor
  · intro hcompletes
    obtain ⟨hstarts, hany⟩ := Bool.and_eq_true_iff.mp hcompletes
    refine h.recorded_or_quiet.resolve_right fun hquiet => ?_
    obtain ⟨story, hmem, hgood⟩ := List.any_eq_true.mp hany
    rcases hquiet.2 with hnot | hnone
    · exact Bool.false_ne_true (hnot.symm.trans hstarts)
    · exact Bool.false_ne_true ((hnone story hmem).symm.trans hgood)
  · rintro ⟨first, record, last, hrecorded⟩
    rw [completes, hrecorded.enabled, hrecorded.any_isGoodSegment]
    rfl

/-! ### What a whole story makes of records -/

/-- The records made in several stories. -/
theorem records_deedsAll {stories : List (Story σ)}
    (h : ∀ story ∈ stories, History.records story.deeds =
      story.record?.toList ++ story.completions.flatMap ownRecords)
    (hquiet : ∀ story ∈ stories, story.record? = none) :
    History.records (deedsAll stories) = (stories.flatMap completions).flatMap ownRecords := by
  induction stories with
  | nil => rfl
  | cons story rest ih =>
    obtain ⟨hstory, hrest⟩ := List.forall_mem_cons.mp h
    obtain ⟨hnone, hnone'⟩ := List.forall_mem_cons.mp hquiet
    have hrecords : History.records (deedsAll (story :: rest)) =
        History.records story.deeds ++ History.records (deedsAll rest) :=
      List.filterMap_append
    rw [hrecords, hstory, hnone, ih hrest hnone', List.flatMap_cons, List.flatMap_append]
    rfl

theorem IsStep.isQuiet {story : Story σ} (h : story.IsStep) : story.IsQuiet := by
  cases h with
  | own hown =>
    cases hown with
    | memory change => exact ⟨rfl, rfl⟩
    | request r bodies => exact ⟨rfl, rfl⟩
  | call callee within => exact ⟨rfl, rfl⟩

end Story

/-- What finds an implementation makes no record. -/
theorem Deed.Finds.isQuiet {callee : Invocation} {d : Deed σ}
    {implementation : Implementation σ} (h : d.Finds callee implementation) :
    (Story.deed d).IsQuiet := by
  cases h with
  | lookup h => exact ⟨rfl, rfl⟩
  | kept s number => exact ⟨rfl, rfl⟩

theorem Calls.isQuiet {callee : Invocation} {depth : Nat} {within : List (Story σ)}
    (h : Calls callee depth within) : ∀ story ∈ within, story.IsQuiet := by
  cases h with
  | undefined h => exact List.forall_mem_singleton.mpr ⟨rfl, rfl⟩
  | tooDeep hfinds => exact List.forall_mem_singleton.mpr hfinds.isQuiet
  | @found depth d implementation hfinds ended inside =>
    exact List.forall_mem_cons.mpr
      ⟨hfinds.isQuiet, List.forall_mem_singleton.mpr (implementation.isQuiet_told ..)⟩

namespace Story.Orderly

variable {depth : Nat} {story : Story σ}

/-- **The records that were made are those of the passages that complete**, in the order in
which they do. -/
theorem records_deeds (h : story.Orderly depth) :
    History.records story.deeds =
      story.record?.toList ++ story.completions.flatMap ownRecords := by
  induction h with
  | deed depth d =>
    cases hd : d.record? with
    | none => simp [deeds, History.records, record?, completions, hd]
    | some record => simp [deeds, History.records, record?, completions, hd]
  | body does steps inside ih =>
    refine (records_deedsAll ih fun story hmem => (steps story hmem).isQuiet.1).trans ?_
    rw [completions, completionsAll_of_quiet (.inl rfl)]
    rfl
  | call calls inside ih =>
    refine (records_deedsAll ih fun story hmem => (calls.isQuiet story hmem).1).trans ?_
    rw [completions, completionsAll_of_quiet (.inl rfl)]
    rfl
  | @passage depth owner covered entered ended within passes inside ih =>
    show History.records (deedsAll within) = [] ++ _
    rw [List.nil_append, completions]
    rcases passes.recorded_or_quiet with ⟨first, record, last, h⟩ | ⟨hquiet, hsegment⟩
    · have hown : ownRecords (.passage owner covered entered ended within) = [record] :=
        h.filterMap_record?
      rw [if_pos h.enabled, h.completionsAll_eq]
      obtain ⟨before, segment, stop, made, -, hwithin, -, -, -, hmade⟩ := h.within_eq
      have hfirst := records_deedsAll (fun story hmem => ih story (by simp [hwithin, hmem]))
        fun story hmem => (h.isQuiet_first story hmem).1
      have hlast := records_deedsAll (fun story hmem => ih story (by simp [hwithin, hmem]))
        fun story hmem => (h.record?_last story hmem).1
      have hdeeds : deedsAll within = deedsAll first ++ made :: deedsAll last := by
        rw [hwithin, deedsAll_append]
        rfl
      rw [List.flatMap_append, List.flatMap_append, ← hfirst, ← hlast, List.flatMap_singleton,
        hown, hdeeds, History.records, List.filterMap_append, List.filterMap_cons, hmade]
      simp [History.records]
    · rw [completionsAll_of_quiet]
      · exact records_deedsAll ih fun story hmem => (hquiet story hmem).1
      · exact hsegment.imp (fun hnot => by simp [hnot]) id

/-- **Whatever does not complete makes no record**, and hands none on. -/
theorem isQuiet_of_not_completes (h : story.Orderly depth) (hnot : story.completes = false) :
    story.ownRecords = [] ∧ story.ownHandings = [] := by
  have hquiet : ∀ part ∈ story.inside, part.IsQuiet := by
    cases h with
    | deed depth d => exact fun part hmem => absurd hmem List.not_mem_nil
    | body does steps inside => exact fun part hmem => (steps part hmem).isQuiet
    | call calls inside => exact calls.isQuiet
    | passage passes inside =>
      have hrest := passes.recorded_or_quiet.resolve_left fun hrecorded =>
        Bool.false_ne_true (hnot.symm.trans ((completes_iff passes).mpr hrecorded))
      exact hrest.1
  exact ⟨ownRecords_eq_nil hquiet, ownHandings_eq_nil hquiet⟩

/-- **The passages that complete are listed once each.** -/
theorem completions_perm (h : story.Orderly depth) :
    story.completions.Perm (story.parts.filter completes) := by
  -- in stories side by side, what completes is what completes in each of them
  have hside {stories : List (Story σ)}
      (ih : ∀ story ∈ stories, story.completions.Perm (story.parts.filter completes)) :
      (stories.flatMap completions).Perm ((partsAll stories).filter completes) := by
    rw [partsAll_eq_flatMap, List.filter_flatMap]
    exact List.Perm.flatMap_left _ ih
  induction h with
  | deed depth d => rfl
  | body does steps inside ih =>
    rw [completions, completionsAll_of_quiet (.inl rfl), parts]
    exact hside ih
  | call calls inside ih =>
    rw [completions, completionsAll_of_quiet (.inl rfl), parts]
    exact hside ih
  | @passage depth owner covered entered ended within passes inside ih =>
    rw [completions, parts]
    by_cases hcompletes : (Story.passage owner covered entered ended within).completes = true
    · rw [List.filter_cons_of_pos hcompletes]
      obtain ⟨first, record, last, h⟩ := (completes_iff passes).mp hcompletes
      rw [if_pos h.enabled, h.completionsAll_eq]
      obtain ⟨before, segment, stop, made, -, hwithin, -, -, -, -⟩ := h.within_eq
      have hall : within.flatMap completions =
          first.flatMap completions ++ last.flatMap completions := by
        rw [hwithin, List.flatMap_append, List.flatMap_cons]
        rfl
      refine List.Perm.trans ?_ ((hside ih).cons _)
      rw [hall, List.append_assoc]
      exact List.perm_middle
    · rw [List.filter_cons_of_neg hcompletes, completionsAll_of_quiet]
      · exact hside ih
      · have hquiet := passes.recorded_or_quiet.resolve_left fun hrecorded =>
          hcompletes ((completes_iff passes).mpr hrecorded)
        exact hquiet.2.imp (fun hnot => by simp [hnot]) id

end Story.Orderly

end Interception
