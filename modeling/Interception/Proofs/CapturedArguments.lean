import Interception.Proofs.Arguments
import Interception.Proofs.Recording
import Interception.Proofs.Retelling
import Interception.Proofs.Snapshot

/-!
# The arguments on a record

A collector that captures arguments takes them from the call as it finds it, and it finds it when
the segment has ended. So the arguments on a record are not those with which the segment was
entered, but what the segment has left of them: a body that overwrites an argument while it runs
overwrites what will be recorded of its call.

A story tells with what call a segment was entered (`SegmentStage`), and what a story tells can be
done (`Interception.Proofs.Retelling`), so the thread that does it tells which writes were made
(`SegmentStage.exists_writes`). `Delivered` puts both together for a passage whose record goes to a
collector.

| the call | what it is |
|---|---|
| as the caller made it | `call` |
| as the segment finds it | `call.overwritten first`, with the writes of the before-hook |
| as it is recorded | `(call.overwritten first).overwritten later`, with those of the segment |

The last two have the same arguments just if each position that the segment wrote to holds in the
end what it held at first (`Invocation.arguments_overwritten_eq_iff`).
-/

namespace Interception

variable {σ α : Type}

/-! ### Writes that change nothing -/

/-- **Writes leave the arguments as they were** just if they leave in each position what it
held. -/
theorem Invocation.arguments_overwritten_eq_iff {entered : Invocation} {writes : List Write} :
    (entered.overwritten writes).arguments = entered.arguments ↔
      ∀ index own, entered.argument? index = some own →
        (lastWritten? writes index).getD own = own := by
  constructor
  · intro h index own hown
    have hsame : (entered.overwritten writes).argument? index = entered.argument? index :=
      congrArg (fun arguments : List Value => arguments[index]?) h
    rw [argument?_overwritten, hown, Option.map_some] at hsame
    exact Option.some.inj hsame
  · intro h
    refine congrArg Invocation.arguments (ext_argument? rfl rfl fun index => ?_)
    rw [argument?_overwritten]
    cases hown : entered.argument? index with
    | none => rfl
    | some own => rw [Option.map_some, h index own hown]

/-! ### What the stages write -/

/-- A thread that ended well on the writes so far ended so with some more. -/
theorem Thread.Does.exists_logged {t : Thread σ Logged} {callee : Invocation}
    {deeds : List (Deed σ)} {value : Value} {now : Invocation}
    (h : (t.map (Logged.outcome callee)).Does deeds (.ok ⟨.ok value, now⟩)) :
    ∃ writes, t.Does deeds (.ok ⟨.ok value, writes⟩) ∧ now = callee.overwritten writes := by
  obtain ⟨fault | ⟨failure | value', writes⟩, hdoes, hended⟩ := h.of_map
  · cases hended
  · cases hended
  · cases hended
    exact ⟨writes, hdoes, rfl⟩

section Stages

variable {depth : Nat} {owner : Handle} {hooks : Hooks σ} {covered : Implementation σ}
  {value : Value}

/-- A before stage that ends well has made some writes. -/
theorem BeforeStage.exists_writes {call entered : Invocation} {stories : List (Story σ)}
    (h : BeforeStage owner hooks call stories (.ok ⟨.ok value, entered⟩))
    (horderly : ∀ story ∈ stories, story.Orderly depth) :
    ∃ first, (beforeLogged (runNested depth) owner hooks call []).Does (Story.deedsAll stories)
        (.ok ⟨.ok value, first⟩) ∧ entered = call.overwritten first := by
  have hdoes := h.does horderly
  rw [← call.overwritten_nil, runBefore_overwritten] at hdoes
  exact hdoes.exists_logged

/-- A segment that ends well has made some writes. -/
theorem SegmentStage.exists_writes {entered left : Invocation} {segment : Story σ}
    (h : SegmentStage owner hooks covered entered segment (.ok ⟨.ok value, left⟩))
    (horderly : segment.Orderly depth) :
    ∃ later, (segmentLogged (runNested depth) owner hooks
        (covered.runLogged (runNested depth) entered) entered []).Does segment.deeds
        (.ok ⟨.ok value, later⟩) ∧ left = entered.overwritten later := by
  have hdoes := h.does covered.does_of_told horderly
  rw [← entered.overwritten_nil,
    runSegment_overwritten fun writes => covered.run_overwritten writes] at hdoes
  exact hdoes.exists_logged

end Stages

/-! ### Passages that end at a collector -/

/-- **A passage whose record goes to a collector**, by a deed on a given system: what it found, and
what was written to the call before its segment and by its segment. -/
structure Delivered (depth : Nat) (owner : Handle) (covered : Implementation σ)
    (call : Invocation) (within : List (Story σ)) (s : System σ) (collector : CollectorId)
    (record : Record) (arguments : List Value) (hooks : Hooks σ) (before : List (Story σ))
    (segment : Story σ) (first later : List Write) : Prop where
  /-- The interceptor is found enabled, with hooks that hand the record to the collector. The
  record is that of the segment, and what is handed over with it is all that the passage does
  after. -/
  within_eq : ∃ entry snapshot start stop made : System σ,
    entry.enabled owner = true ∧ snapshot.hooks owner = hooks ∧
      hooks.after = some (.collect collector) ∧
      record =
        (made.record owner.key start.readClock.1 stop.readClock.1 hooks.replace.isSome).1 ∧
      within = .deed ⟨entry, .enabled owner⟩ :: .deed ⟨snapshot, .hooks owner⟩ ::
        (before ++ [.deed ⟨start, .readClock⟩, segment, .deed ⟨stop, .readClock⟩,
          .deed ⟨made, .record owner.key start.readClock.1 stop.readClock.1
            hooks.replace.isSome⟩] ++ [.deed ⟨s, .deliver collector record arguments⟩])
  /-- The before stage ends well, and has made the first writes to the call. -/
  before_does : ∃ ignored, (beforeLogged (runNested depth) owner hooks call []).Does
    (Story.deedsAll before) (.ok ⟨.ok ignored, first⟩)
  /-- The segment is entered with what the caller passed and the first writes have made of it, … -/
  entered : ∃ value left, SegmentStage owner hooks covered (call.overwritten first) segment
    (.ok ⟨.ok value, left⟩)
  /-- … and makes the later writes. -/
  segment_does : ∃ value, (segmentLogged (runNested depth) owner hooks
    (covered.runLogged (runNested depth) (call.overwritten first)) (call.overwritten first)
    []).Does segment.deeds (.ok ⟨.ok value, later⟩)
  /-- The arguments that are handed over are those which all these writes have made. -/
  arguments_eq : arguments = ((call.overwritten first).overwritten later).arguments
  /-- They are those with which the segment was entered just if each position holds in the end
  what the segment found there. -/
  entered_iff : arguments = (call.overwritten first).arguments ↔
    ∀ index own, (call.overwritten first).argument? index = some own →
      (lastWritten? later index).getD own = own
  /-- A collector that captures arguments puts them on the record. -/
  captured : ∀ c, s.collectors[collector]? = some c → c.captures = true →
    (s.deliver collector record arguments).collectors[collector]? =
      some (c.push (record.withArguments arguments)).2

/-- What a collector that captures arguments gets. -/
theorem System.collectors_deliver {s : System σ} {collector : CollectorId} {c : Collector}
    (hc : s.collectors[collector]? = some c) (hcaptures : c.captures = true) (record : Record)
    (arguments : List Value) :
    (s.deliver collector record arguments).collectors[collector]? =
      some (c.push (record.withArguments arguments)).2 := by
  have hlt : collector < s.collectors.length := (List.getElem?_eq_some_iff.mp hc).1
  rw [deliver, hc]
  dsimp only
  rw [Collector.prepare, if_pos hcaptures]
  exact List.getElem?_set_self hlt

/-- What is handed to a collector in the after stage is what the segment has left. -/
theorem AfterStage.of_deliver {owner : Handle} {hooks : Hooks σ} {made record : Record}
    {left : Invocation} {stories : List (Story σ)} {ended : Except Fault Outcome} {s : System σ}
    {collector : CollectorId} {arguments : List Value}
    (h : AfterStage owner hooks made left stories ended)
    (hmem : .deed ⟨s, .deliver collector record arguments⟩ ∈ stories) :
    hooks.after = some (.collect collector) ∧ record = made ∧ arguments = left.arguments ∧
      stories = [.deed ⟨s, .deliver collector record arguments⟩] := by
  cases h with
  | skipped h => cases hmem
  | collect h s =>
    cases List.mem_singleton.mp hmem
    exact ⟨h, rfl, rfl, rfl⟩
  | hook h ended within => cases List.mem_singleton.mp hmem

section Passages

variable {depth : Nat} {owner : Handle} {covered : Implementation σ} {call : Invocation}
  {s : System σ} {collector : CollectorId} {record : Record} {arguments : List Value}

/-- A record is not handed over quietly. -/
theorem Story.not_isQuiet_deliver :
    ¬(Story.deed ⟨s, .deliver collector record arguments⟩ : Story σ).IsQuiet := by
  rintro ⟨-, h⟩
  cases h

/-- **Stages that hand a record over** have all ended well before, and end with that. -/
theorem Stages.of_deliver {hooks : Hooks σ} {stories : List (Story σ)}
    {ended : Except Fault Outcome} (h : Stages owner hooks covered call stories ended)
    (hmem : .deed ⟨s, .deliver collector record arguments⟩ ∈ stories) :
    ∃ (before : List (Story σ)) (segment : Story σ) (ignored value : Value)
      (entered left : Invocation) (start stop made : System σ),
      BeforeStage owner hooks call before (.ok ⟨.ok ignored, entered⟩) ∧
        SegmentStage owner hooks covered entered segment (.ok ⟨.ok value, left⟩) ∧
        hooks.after = some (.collect collector) ∧
        record =
          (made.record owner.key start.readClock.1 stop.readClock.1 hooks.replace.isSome).1 ∧
        arguments = left.arguments ∧
        stories = before ++ [.deed ⟨start, .readClock⟩, segment, .deed ⟨stop, .readClock⟩,
          .deed ⟨made, .record owner.key start.readClock.1 stop.readClock.1
            hooks.replace.isSome⟩] ++ [.deed ⟨s, .deliver collector record arguments⟩] := by
  cases h with
  | stopped hbefore hended => exact absurd (hbefore.quiet _ hmem).1 Story.not_isQuiet_deliver
  | failed start hbefore hsegment hended =>
    exfalso
    rcases List.mem_append.mp hmem with hin | hin
    · exact Story.not_isQuiet_deliver (hbefore.quiet _ hin).1
    · rcases List.mem_pair.mp hin with he | he
      · cases he
      · exact hsegment.ne_deed _ he
  | @recorded before after segment ignored value entered left ended start stop made hbefore
      hsegment hafter =>
    rcases List.mem_append.mp hmem with hin | hin
    · exfalso
      rcases List.mem_append.mp hin with hin | hin
      · exact Story.not_isQuiet_deliver (hbefore.quiet _ hin).1
      · have hne := hsegment.ne_deed ⟨s, .deliver collector record arguments⟩
        simp [hne] at hin
    · obtain ⟨hcollect, rfl, rfl, rfl⟩ := hafter.of_deliver hin
      exact ⟨before, segment, ignored, value, entered, left, start, stop, made, hbefore, hsegment,
        hcollect, rfl, rfl, rfl⟩

/-- **A passage that hands a record over** has gone through all of its stages, each of which has
made its writes to the call. -/
theorem Passes.exists_delivered {within : List (Story σ)} {ended : Except Fault Outcome}
    (h : Passes owner covered call within ended)
    (horderly : ∀ story ∈ within, story.Orderly depth)
    (hmem : .deed ⟨s, .deliver collector record arguments⟩ ∈ within) :
    ∃ hooks before segment first later, Delivered depth owner covered call within s collector
      record arguments hooks before segment first later := by
  cases h with
  | bypassed henabled ended inside =>
    rcases List.mem_pair.mp hmem with he | he
    · cases he
    · exact absurd he (covered.told_ne_deed call ended inside _)
  | @routed entry henabled snapshot rest ended hstages =>
    have hrest : .deed ⟨s, .deliver collector record arguments⟩ ∈ rest := by
      simpa using hmem
    obtain ⟨before, segment, ignored, value, entered, left, start, stop, made, hbefore, hsegment,
      hcollect, rfl, rfl, rfl⟩ := hstages.of_deliver hrest
    obtain ⟨first, hfirst, rfl⟩ := hbefore.exists_writes fun story hstory =>
      horderly story (by simp [hstory])
    obtain ⟨later, hlater, rfl⟩ := hsegment.exists_writes (horderly segment (by simp))
    exact ⟨_, before, segment, first, later,
      { within_eq := ⟨entry, snapshot, start, stop, made, henabled, rfl, hcollect, rfl, rfl⟩
        before_does := ⟨ignored, hfirst⟩
        entered := ⟨value, _, hsegment⟩
        segment_does := ⟨value, hlater⟩
        arguments_eq := rfl
        entered_iff := Invocation.arguments_overwritten_eq_iff
        captured := fun c hc hcaptures => System.collectors_deliver hc hcaptures _ _ }⟩

/-- A passage that completes hands its record over, if its hooks say to which collector. -/
theorem Story.Recorded.exists_deliver {within first last : List (Story σ)}
    (h : Story.Recorded owner within first record last) :
    ∃ snapshot, .deed ⟨snapshot, .hooks owner⟩ ∈ within ∧
      ∀ collector, (snapshot.hooks owner).after = some (.collect collector) →
        ∃ s record arguments, .deed ⟨s, .deliver collector record arguments⟩ ∈ within := by
  obtain ⟨snapshot, left, ended, hlook, hafter⟩ := h.handed
  obtain ⟨before, segment, stop, made, -, rfl, -, -, -, -⟩ := h.within_eq
  refine ⟨snapshot, List.mem_append_left _ hlook, fun collector hcollect => ?_⟩
  cases hafter with
  | skipped hnone => cases hnone.symm.trans hcollect
  | collect hother s =>
    cases hother.symm.trans hcollect
    exact ⟨s, record, left.arguments, by simp⟩
  | hook hbody ended within => cases hbody.symm.trans hcollect

end Passages

/-- A deed that stands directly in a passage, which is one of some stories. -/
def Deed.StandsInPassage (d : Deed σ) (stories : List (Story σ)) : Prop :=
  ∃ owner covered call ended within,
    .passage owner covered call ended within ∈ stories ∧ .deed d ∈ within

theorem Deed.StandsInPassage.mono {d : Deed σ} {stories more : List (Story σ)}
    (h : d.StandsInPassage stories) (hsub : stories ⊆ more) : d.StandsInPassage more := by
  obtain ⟨owner, covered, call, ended, within, hpassage, hmem⟩ := h
  exact ⟨owner, covered, call, ended, within, hsub hpassage, hmem⟩

/-- **Whatever makes a record or hands one over stands in a passage**, wherever it is told. -/
theorem Story.Orderly.standsInPassage {depth : Nat} {story : Story σ} (h : story.Orderly depth)
    {d : Deed σ} (hd : ¬(Story.deed d).IsQuiet) (hmem : d ∈ story.deeds) :
    story = .deed d ∨ d.StandsInPassage story.parts := by
  -- one of several stories is the deed, or the passage is inside of one of them
  have hwithin {within : List (Story σ)}
      (ih : ∀ story ∈ within, d ∈ story.deeds → story = .deed d ∨ d.StandsInPassage story.parts)
      (hdeed : d ∈ deedsAll within) :
      .deed d ∈ within ∨ d.StandsInPassage (partsAll within) := by
    rw [deedsAll_eq_flatMap] at hdeed
    obtain ⟨story, hstory, hdeed⟩ := List.mem_flatMap.mp hdeed
    rcases ih story hstory hdeed with rfl | hstands
    · exact .inl hstory
    · exact .inr (hstands.mono fun part hpart => mem_partsAll_iff.mpr ⟨story, hstory, hpart⟩)
  induction h with
  | deed depth d =>
    obtain rfl := List.mem_singleton.mp hmem
    exact .inl rfl
  | body does steps inside ih =>
    rcases hwithin ih hmem with hin | hstands
    · exact absurd (steps _ hin).isQuiet hd
    · exact .inr (hstands.mono (List.subset_cons_self _ _))
  | call calls inside ih =>
    rcases hwithin ih hmem with hin | hstands
    · exact absurd (calls.isQuiet _ hin) hd
    · exact .inr (hstands.mono (List.subset_cons_self _ _))
  | @passage depth owner covered call ended within passes inside ih =>
    rcases hwithin ih hmem with hin | hstands
    · exact .inr ⟨owner, covered, call, ended, within, List.mem_cons_self, hin⟩
    · exact .inr (hstands.mono (List.subset_cons_self _ _))

/-! ### Programs side by side -/

/-- **Captured arguments are those that the segment of a call has left.** Let any number of programs
run side by side on a system that starts with nothing, taking turns in any order, and let them do
to the system whatever they like. Every program comes to its end if it is given enough further
turns; and for each one that has, there is a story of what it did. In every such story, at whatever
depth:

* whatever is handed to a collector is handed over by a passage of a call through a trampoline, and
  a passage that completes and has found that a collector is to have its record hands it over;
* what a passage hands over are the arguments of the caller, with what was written last by its
  before-hook and then by its segment, be that a replace-hook or what is covered; a collector that
  captures arguments puts just these on its record;
* they are not those with which the segment was entered, unless each position that the segment wrote
  to holds in the end what it held at first. -/
theorem captured_of_history (clock : Clock) (memory : σ) (programs : List (Nat × Program σ))
    (turns : List Nat) (member depth : Nat) (p : Program σ)
    (hp : programs[member]? = some (depth, p)) :
    let crew := Crew.ofPrograms clock memory programs
    (∃ count result,
        (crew.follow (turns ++ List.replicate count member)).ended? member = some result) ∧
      ∀ result, (crew.follow turns).ended? member = some result →
        (∃ story, p.IsTold depth (crew.doings member turns) story) ∧
          ∀ story, p.IsTold depth (crew.doings member turns) story →
            (∀ s collector record arguments,
              ⟨s, .deliver collector record arguments⟩ ∈ crew.doings member turns →
                Deed.StandsInPassage ⟨s, .deliver collector record arguments⟩ story.parts) ∧
            ∀ owner covered call ended within,
              .passage owner covered call ended within ∈ story.parts →
                ((Story.passage owner covered call ended within).completes = true →
                  ∃ snapshot, .deed ⟨snapshot, .hooks owner⟩ ∈ within ∧
                    ∀ collector, (snapshot.hooks owner).after = some (.collect collector) →
                      ∃ s record arguments,
                        .deed ⟨s, .deliver collector record arguments⟩ ∈ within) ∧
                ∀ s collector record arguments,
                  .deed ⟨s, .deliver collector record arguments⟩ ∈ within →
                    ∃ inner hooks before segment first later,
                      Delivered inner owner covered call within s collector record arguments hooks
                        before segment first later := by
  intro crew
  refine ⟨?_, fun result hended => ⟨Crew.exists_isTold hp hended, fun story htold => ⟨?_, ?_⟩⟩⟩
  · have hlength : crew.threads.length = programs.length := List.length_map _
    have hlt : member < programs.length := (List.getElem?_eq_some_iff.mp hp).1
    exact crew.exists_ended turns (hlength ▸ hlt)
  · intro s collector record arguments hdone
    rw [← htold.deeds_eq] at hdone
    have hstands := htold.orderly.standsInPassage Story.not_isQuiet_deliver hdone
    refine hstands.resolve_left fun he => ?_
    obtain ⟨ended, within, hwhole⟩ := htold.whole
    cases hwhole.symm.trans he
  · intro owner covered call ended within hpart
    obtain ⟨⟨inner, horderly⟩, -⟩ := htold.orderly.of_mem_parts hpart
    cases horderly with
    | passage passes inside =>
      refine ⟨fun hcompletes => ?_, fun s collector record arguments hmem =>
        ⟨inner, passes.exists_delivered inside hmem⟩⟩
      obtain ⟨first, record, last, hrecorded⟩ := (Story.completes_iff passes).mp hcompletes
      exact hrecorded.exists_deliver

namespace Till

/-- An operation that empties what it is given. -/
def key : Key :=
  .ofType "Till" "take"

/-- The call that puts something in. -/
def take : Invocation :=
  ⟨.ofType, key, [.int 5]⟩

/-- Answers with the argument of the call, and puts nothing in its place. -/
def body : Program Unit :=
  .set 0 (.int 0) fun taken => .done (taken.getD .null)

/-- Defines the operation and has its calls recorded with their arguments. -/
def opening (next : Program Unit) : Program Unit :=
  .request (.define key) (fun _ => body) fun _ =>
    .request (.createCollector 4 none true) Empty.elim fun _ =>
      .request (.create key) Empty.elim fun handle =>
        .request (.collect handle 0) Empty.elim fun _ =>
          .request (.install handle) Empty.elim fun _ => next

/-- Opens, and calls the operation once. -/
def sale : Program Unit :=
  opening (.callThen take .done)

/-- The program on a system with nothing in it. -/
def crew : Crew Unit (Except Failure Value) :=
  .ofPrograms (fun _ => .atEpoch) () [(1, sale)]

/-- The turns of the only program. -/
def turns : List Nat :=
  List.replicate 12 0

/-- What is recorded of the sale is what the segment wrote. -/
theorem captured_of_sale :
    (crew.follow turns).ended? 0 = some (.ok (.ok (.int 5))) ∧
      ∃ story, sale.IsTold 1 (crew.doings 0 turns) story ∧
        ∃ s record owner covered call ended within,
          .passage owner covered call ended within ∈ story.parts ∧
            .deed ⟨s, .deliver 0 record [.int 0]⟩ ∈ within ∧
            ∃ inner hooks before segment first later,
              Delivered inner owner covered call within s 0 record [.int 0] hooks before segment
                first later := by
  have hended : (crew.follow turns).ended? 0 = some (.ok (.ok (.int 5))) := rfl
  have hdone : ∃ s record, (⟨s, .deliver 0 record [.int 0]⟩ : Deed Unit) ∈ crew.doings 0 turns :=
    ⟨_, _, List.mem_of_getElem? (i := 11) rfl⟩
  obtain ⟨s, record, hdone⟩ := hdone
  obtain ⟨-, hstories⟩ := captured_of_history (fun _ => .atEpoch) () [(1, sale)] turns 0 1 sale rfl
  obtain ⟨⟨story, htold⟩, hcaptured⟩ := hstories _ hended
  obtain ⟨hpassage, hdelivered⟩ := hcaptured story htold
  obtain ⟨owner, covered, call, ended, within, hpart, hmem⟩ := hpassage _ _ _ _ hdone
  exact ⟨hended, story, htold, s, record, owner, covered, call, ended, within, hpart, hmem,
    (hdelivered owner covered call ended within hpart).2 _ _ _ _ hmem⟩

/-- The system when the operation can be called. -/
def system : System Unit :=
  (Crew.follow ⟨[(opening (.done .null)).thread 1], .start (fun _ => .atEpoch) ()⟩
    (List.replicate 5 0)).system

/-- The body is entered with one argument, and another one is on the record. -/
theorem sale_captures_other :
    system.table.owner? key = some ⟨0, key⟩ ∧ system.enabled ⟨0, key⟩ = true ∧
      (system.evaluate 1 take).trees =
        [.node (.call take (.ok (.ok (.int 5))))
          [.node (.implementation take (.ok (.ok (.int 5)))) []]] ∧
      ∃ c record, (system.invoke 1 take).2.collectors[0]? = some c ∧ c.captures = true ∧
        c.buffer.toList = [record] ∧ record.arguments ≠ some take.arguments := by
  refine ⟨rfl, rfl, rfl, _, _, rfl, rfl, rfl, ?_⟩
  exact fun he => absurd he (by decide)

end Till

end Interception
