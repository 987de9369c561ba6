import Purra.RunMemory.Lifecycle

/-!
# Verbatim publication

`purra/output/verbatim.py`: the answer a Provider gave in a private stream is published as it
is, cut into frames of at most 16384 bytes.

* `Carries` — frames that carry a text: in order, whole characters, none empty, none too long.
  `carries_textFrames` says that `_text_frames` makes such frames of every text.
* `Answers` — a private stream is complete, its events deliver a text, and a reference names it.
  `verbatimPublicationDrafts_eq_ok` says that these are exactly the texts that are published,
  the blank ones apart.
* `Publishes` — drafts whose public text is a given one.
-/

namespace Purra.RunMemory

open Contracts Output

/-! ## Frames -/

/-- The bytes of characters in UTF-8. -/
def utf8Length (chars : List Char) : Nat := (chars.map Char.utf8Size).sum

theorem utf8ByteSize_ofList (chars : List Char) :
    (String.ofList chars).utf8ByteSize = utf8Length chars := by
  induction chars with
  | nil => rfl
  | cons c chars ih =>
    have hcons : String.ofList (c :: chars) = String.singleton c ++ String.ofList chars := by
      apply String.ext
      simp
    rw [hcons, String.utf8ByteSize_append, String.utf8ByteSize_singleton, ih]
    rfl

theorem utf8Length_append (a b : List Char) : utf8Length (a ++ b) = utf8Length a + utf8Length b := by
  unfold utf8Length
  rw [List.map_append, List.sum_append]

@[simp] theorem utf8Length_singleton (c : Char) : utf8Length [c] = c.utf8Size := by simp [utf8Length]

/-- The frames carry the text: their characters are its characters, and a frame is neither empty
nor longer than 16384 bytes. -/
structure Carries (frames : List String) (text : String) : Prop where
  whole : frames.flatMap String.toList = text.toList
  join : String.join frames = text
  nonempty : ∀ frame ∈ frames, frame ≠ ""
  bounded : ∀ frame ∈ frames, frame.utf8ByteSize ≤ 16384

/-- What the loop makes of the characters it has not looked at, behind the frame it is filling. -/
theorem flatMap_textFrames (frame rest : List Char) (size : Nat) :
    (textFrames frame rest size).flatMap String.toList = frame ++ rest := by
  induction rest generalizing frame size with
  | nil =>
    unfold textFrames
    split
    · rename_i hempty
      rw [hempty]
      rfl
    · simp
  | cons c rest ih =>
    unfold textFrames
    split
    · rw [List.flatMap_cons, ih, String.toList_ofList]
      simp
    · rw [ih]
      simp

/-- A frame is closed before it grows too long, and only when it holds a character: one alone
always fits. -/
theorem mem_textFrames {frame rest : List Char} {size : Nat} (hsize : size = utf8Length frame)
    (hfits : size ≤ 16384) :
    ∀ closed ∈ textFrames frame rest size, closed ≠ "" ∧ closed.utf8ByteSize ≤ 16384 := by
  have hclosed : ∀ chars : List Char, chars ≠ [] → utf8Length chars ≤ 16384 →
      String.ofList chars ≠ "" ∧ (String.ofList chars).utf8ByteSize ≤ 16384 := by
    intro chars hne hle
    refine ⟨fun hempty => hne ?_, by rwa [utf8ByteSize_ofList]⟩
    have h := congrArg String.toList hempty
    rwa [String.toList_ofList] at h
  induction rest generalizing frame size with
  | nil =>
    intro closed hmem
    unfold textFrames at hmem
    split at hmem
    · cases hmem
    · rename_i hne
      rw [List.mem_singleton.1 hmem]
      exact hclosed frame hne (hsize ▸ hfits)
  | cons c rest ih =>
    have hwidth : c.utf8Size ≤ 4 := c.utf8Size_le_four
    intro closed hmem
    unfold textFrames at hmem
    split at hmem
    · rename_i hfull
      rcases List.mem_cons.1 hmem with rfl | hmem
      · refine hclosed frame (fun hempty => ?_) (hsize ▸ hfits)
        rw [hempty] at hsize
        have hzero : size = 0 := hsize
        omega
      · exact ih (utf8Length_singleton c).symm (by omega) closed hmem
    · refine ih ?_ (by omega) closed hmem
      rw [utf8Length_append, utf8Length_singleton, ← hsize]

/-- **`_text_frames` carries every text.** -/
theorem carries_textFrames (text : String) : Carries (textFrames [] text.toList 0) text where
  whole := flatMap_textFrames [] text.toList 0
  join := by
    apply String.toList_inj.1
    rw [String.toList_join]
    exact flatMap_textFrames [] text.toList 0
  nonempty frame hmem := (mem_textFrames rfl (Nat.zero_le _) frame hmem).1
  bounded frame hmem := (mem_textFrames rfl (Nat.zero_le _) frame hmem).2

section

variable {host : Host} {reference : OutputTextReference} {stream : StoredStream}
  {events : List AgentOutputEvent} {text : String} {occurredAt : Int}
  {drafts : List AgentOutputEventDraft}

/-! ## Answers -/

variable (host reference stream events text) in
/-- A private stream is complete, what the Provider said in it is the text, and the reference
names the text. -/
structure Answers : Prop where
  named : reference = OutputTextReference.forText host stream.spec.runId
    stream.spec.outputStreamId stream.spec.invocationId text
  isPrivate : stream.spec.intent = .structuredPrivate
  unplanned : stream.spec.outputProtocol = none
  committed : stream.status = .committed
  stopped : stream.finishReason = some .stop
  own : ∀ event ∈ events, checkVerbatimEvent stream.spec event = .ok ()
  said : String.join (events.flatMap (verbatimParts host)) = text

variable (reference stream text occurredAt) in
/-- The drafts of an answer: its frames, and the end of the publication. -/
def answerDrafts : List AgentOutputEventDraft :=
  (textFrames [] text.toList 0).zipIdx.map (fun frame =>
      .publicText stream.spec.runId stream.spec.turnId stream.spec.outputStreamId
        stream.spec.invocationId
        ("provider:" ++ stream.spec.invocationId ++ ":verbatim:" ++ toString frame.2) .provider
        .final frame.1 occurredAt) ++
    [streamDraft stream.spec stream.spec.outputStreamId
      ("stream:" ++ stream.spec.outputStreamId ++ ":verbatim:committed") .streamCommitted .final
      .publicEvent
      [("finishReason", .str "stop"), ("contentDigest", .str reference.contentDigest)] occurredAt]

/-- What is published is the answers that are not blank, each as `answerDrafts`. -/
theorem verbatimPublicationDrafts_eq_ok :
    verbatimPublicationDrafts host reference stream events text occurredAt = .ok drafts ↔
      Answers host reference stream events text ∧ strip text ≠ "" ∧
        drafts = answerDrafts reference stream text occurredAt := by
  constructor
  · intro h
    obtain ⟨_, hidentity, h⟩ := bind_eq_ok h
    obtain ⟨_, hcomplete, h⟩ := bind_eq_ok h
    obtain ⟨_, hown, h⟩ := bind_eq_ok h
    obtain ⟨_, hsaid, h⟩ := bind_eq_ok h
    have hidentity := rejectIf_eq_ok.1 hidentity
    have hcomplete := rejectIf_eq_ok.1 hcomplete
    have hsaid := rejectIf_eq_ok.1 hsaid
    simp only [not_or, not_not] at hidentity hcomplete hsaid
    cases h
    exact ⟨⟨hidentity.1, hidentity.2.1, hidentity.2.2, hcomplete.1, hcomplete.2,
      of_forM_eq_ok hown, hsaid.1⟩, hsaid.2, rfl⟩
  · rintro ⟨h, hblank, rfl⟩
    have hown : events.forM (checkVerbatimEvent stream.spec) = .ok () := by
      rcases forM_cases (checkVerbatimEvent stream.spec) events with ⟨hok, -⟩ | ⟨event, hmem, e, he, -⟩
      · exact hok
      · rw [h.own event hmem] at he
        cases he
    unfold verbatimPublicationDrafts
    dsimp only
    rw [rejectIf_of_not (by simp [← h.named, h.isPrivate, h.unplanned]), ok_bind,
      rejectIf_of_not (by simp [h.committed, h.stopped]), ok_bind, hown, ok_bind,
      rejectIf_of_not (by simp [h.said, hblank]), ok_bind]
    rfl

/-! ## What is published -/

/-- The deltas of the public text among drafts. -/
def publicDeltas (drafts : List AgentOutputEventDraft) : List Json :=
  (drafts.filter fun draft => draft.kind = .providerContentDelta ∧ draft.channel = .final ∧
    draft.visibility = .publicEvent).map fun draft => Json.get draft.payload "delta"

/-- The public text among the drafts is the text, in frames that carry it. -/
def Publishes (drafts : List AgentOutputEventDraft) (text : String) : Prop :=
  ∃ frames, publicDeltas drafts = frames.map Json.str ∧ Carries frames text

theorem publishes_answerDrafts : Publishes (answerDrafts reference stream text occurredAt) text := by
  refine ⟨textFrames [] text.toList 0, ?_, carries_textFrames text⟩
  unfold publicDeltas answerDrafts
  rw [List.filter_append, List.filter_eq_self.2, List.map_append, List.map_map]
  · have hdeltas : (textFrames [] text.toList 0).zipIdx.map (Json.str ∘ Prod.fst) =
        (textFrames [] text.toList 0).map Json.str := by
      rw [← List.map_map, List.zipIdx_map_fst]
    rw [← hdeltas]
    exact List.append_nil _
  · intro draft hmem
    obtain ⟨frame, -, rfl⟩ := List.mem_map.1 hmem
    rfl

/-! ## Commits -/

variable {s s' : RunState} {runId : String} {commit : RunCommit}

/-- What a commit publishes: nothing, or the stream that its reference names. -/
theorem finalDrafts_eq_ok (h : finalDrafts host s runId commit occurredAt = .ok drafts) :
    commit.finalOutput = none ∧ drafts = [] ∨
      ∃ reference stream, commit.finalOutput = some reference ∧ reference.runId = runId ∧
        verbatimPublicationDrafts host reference stream
          ((s.eventsOf runId).filter fun event =>
            event.outputStreamId = some stream.spec.outputStreamId)
          (commit.finalResponse.getD "") occurredAt = .ok drafts := by
  unfold finalDrafts at h
  cases houtput : commit.finalOutput with
  | none =>
    rw [houtput] at h
    cases h
    exact Or.inl ⟨rfl, rfl⟩
  | some reference =>
    rw [houtput] at h
    obtain ⟨stream, -, h⟩ := bind_eq_ok h
    obtain ⟨_, hown, h⟩ := bind_eq_ok h
    exact Or.inr ⟨reference, stream, rfl, not_not.1 (rejectIf_eq_ok.1 hown), h⟩

/-- A commit that names an output publishes its final response. -/
theorem publishes_finalDrafts (h : finalDrafts host s runId commit occurredAt = .ok drafts)
    (houtput : commit.finalOutput = some reference) :
    ∃ text, commit.finalResponse = some text ∧ Publishes drafts text := by
  rcases finalDrafts_eq_ok h with ⟨hnone, -⟩ | ⟨_, stream, -, -, h⟩
  · rw [houtput] at hnone
    cases hnone
  · obtain ⟨-, hblank, rfl⟩ := verbatimPublicationDrafts_eq_ok.1 h
    cases hresponse : commit.finalResponse with
    | none =>
      rw [hresponse] at hblank
      exact absurd rfl hblank
    | some text => exact ⟨text, rfl, publishes_answerDrafts⟩

/-- A lifecycle commit that returned had its answer prepared. -/
theorem finalDrafts_of_commit {writer : Writer} {draft : RunLifecycleOutputDraft RunStatus}
    {related : List AgentOutputEventDraft}
    (h : commitRunLifecycle host writer runId commit draft related s = (.ok events, s')) :
    ∃ drafts, finalDrafts host s runId commit draft.occurredAt = .ok drafts := by
  obtain ⟨prepared, hprepared, -⟩ := Action.ofExcept_bind_eq_ok.1 (Action.read_bind_eq_ok.1 h)
  obtain ⟨_, -, hprepared⟩ := bind_eq_ok hprepared
  obtain ⟨drafts, hdrafts, -⟩ := bind_eq_ok hprepared
  exact ⟨drafts, hdrafts⟩

end

/-! ## Exactness -/

/-- **Verbatim publication.**  A complete private answer that is not blank is published in frames
that carry it, and a blank one is refused; what a commit publishes carries its final response. -/
theorem verbatim_publication_exact (host : Host) :
    (∀ reference stream events text occurredAt, Answers host reference stream events text →
      (strip text ≠ "" →
        ∃ drafts, verbatimPublicationDrafts host reference stream events text occurredAt =
          .ok drafts ∧ Publishes drafts text) ∧
      (strip text = "" →
        ∀ drafts, verbatimPublicationDrafts host reference stream events text occurredAt ≠
          .ok drafts)) ∧
    ∀ writer s s' runId commit draft related events reference,
      commit.finalOutput = some reference →
      commitRunLifecycle host writer runId commit draft related s = (.ok events, s') →
      ∃ drafts text, finalDrafts host s runId commit draft.occurredAt = .ok drafts ∧
        commit.finalResponse = some text ∧ Publishes drafts text := by
  constructor
  · intro reference stream events text occurredAt hanswers
    constructor
    · intro hblank
      exact ⟨_, verbatimPublicationDrafts_eq_ok.2 ⟨hanswers, hblank, rfl⟩, publishes_answerDrafts⟩
    · intro hblank drafts h
      exact (verbatimPublicationDrafts_eq_ok.1 h).2.1 hblank
  · intro writer s s' runId commit draft related events reference houtput h
    obtain ⟨drafts, hdrafts⟩ := finalDrafts_of_commit h
    obtain ⟨text, hresponse, hpublishes⟩ := publishes_finalDrafts hdrafts houtput
    exact ⟨drafts, text, hdrafts, hresponse, hpublishes⟩

/-- A committed private stream. -/
def spokenStream : StoredStream where
  spec := {
    outputStreamId := "stream"
    runId := "run"
    turnId := none
    invocationId := "call"
    intent := .structuredPrivate
    commitMode := .privateMode }
  status := .committed
  finishReason := some .stop

/-- The Provider says a text. -/
def spokenEvent (text : String) : AgentOutputEvent where
  runId := "run"
  turnId := none
  outputStreamId := some "stream"
  invocationId := some "call"
  sourceEventKey := "provider:call:1"
  source := .provider
  kind := .providerContentDelta
  channel := .diagnostic
  visibility := .privateEvent
  payload := [("delta", .str text)]
  occurredAt := 0
  sequence := 1
  rootRunId := "run"
  agentId := none
  parentRunId := none
  rootSequence := 1

/-- The platform the samples run on. -/
def spokenHost : Host where
  py := { repr := fun _ => "", parseInt := fun _ => .error (.valueError "invalid literal for int()") }
  loads _ := .error (.valueError "Expecting value")
  payloadBytes _ := 0
  isoformat _ := "1970-01-01T00:00:00+00:00"
  elapsedMs later earlier := (later - earlier) / 1000
  sha256 _ := "36a9e7f1c95b82ffb99743e0c5c4ce95d83c9a430aac59f84ef3cbfab6145068"

theorem answers_spoken {text : String} (htext : text ≠ "") :
    Answers spokenHost (OutputTextReference.forText spokenHost "run" "stream" "call" text)
      spokenStream [spokenEvent text] text where
  named := rfl
  isPrivate := rfl
  unplanned := rfl
  committed := rfl
  stopped := rfl
  own event hmem := by
    rw [List.mem_singleton.1 hmem]
    rfl
  said := by
    have hdelta : deltaText spokenHost [("delta", .str text)] = text := by
      unfold deltaText
      rw [show Json.get [("delta", Json.str text)] "delta" = .str text from rfl]
      simp [Json.orElse, Json.truthy, htext, Builtins.str]
    have hparts : verbatimParts spokenHost (spokenEvent text) = [text] := by
      show [deltaText spokenHost [("delta", .str text)]] = [text]
      rw [hdelta]
    rw [List.flatMap_singleton, hparts]
    simp

/-- A line, published as it is. -/
theorem verbatim_publication_exact_line :
    ∃ drafts, verbatimPublicationDrafts spokenHost
        (OutputTextReference.forText spokenHost "run" "stream" "call" " é\n") spokenStream
        [spokenEvent " é\n"] " é\n" 0 = .ok drafts ∧ Publishes drafts " é\n" :=
  ((verbatim_publication_exact spokenHost).1 _ _ _ _ 0 (answers_spoken (by decide))).1
    (by decide +kernel)

/-- A Provider that says a single blank is not published. -/
theorem blank_not_published :
    ¬ ∀ host reference stream events text occurredAt, text ≠ "" →
      Answers host reference stream events text →
      ∃ drafts, verbatimPublicationDrafts host reference stream events text occurredAt =
        .ok drafts ∧ Publishes drafts text := by
  intro h
  obtain ⟨drafts, hdrafts, -⟩ := h _ _ _ _ " " 0 (by decide) (answers_spoken (by decide))
  exact (verbatimPublicationDrafts_eq_ok.1 hdrafts).2.1 (by decide +kernel)

end Purra.RunMemory
