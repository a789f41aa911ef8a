import Agenda.Proofs.Command.Target
import Agenda.Proofs.Extract.Tier
import Agenda.Proofs.Pattern.Found

/-! # Tags and priorities come from markers

A task has tags only if its text has a tag marker and does not ask for tags to be left out, and a
priority only if its text has a priority marker. What the service answers makes no difference. The
markers are sought in the trimmed text and are the same there as in the whole.
-/

namespace Agenda.Extract

open Pattern

variable {text : List Char} {now : Moment} {t : ParsedTask} {service : Service}

/-! ## Markers and the blanks around a text -/

section Words

variable {w : String} {ws : List String}

theorem not_takes_keywords_nil (hSome : "" ∉ ws) : ¬ (keywords ws).Takes [] := by
  intro hTakes
  obtain ⟨w, hw, hNil⟩ := takes_keywords.mp hTakes
  obtain rfl := String.toList_eq_nil_iff.mp (List.forall₂_nil_right_iff.mp hNil)
  exact hSome hw

theorem begins_keywords (hPlain : ∀ w ∈ ws, Text.Plain w) (hSome : "" ∉ ws) : Begins (keywords ws) :=
  begins_of_unbroken (Command.unbroken_of_keywords hPlain) (not_takes_keywords_nil hSome)

theorem finishes_keyword (hPlain : Text.Plain w) (hSome : w ≠ "") : Finishes (keyword w) := by
  refine finishes_of_unbroken (Command.unbroken_of_keyword hPlain) fun hTakes => ?_
  have hOnly : "" ∉ [w] := by simpa using hSome.symm
  exact not_takes_keywords_nil hOnly hTakes

theorem unbroken_of_word (cs : List Char) (h : word.Takes cs) : Text.Unbroken cs :=
  fun c hc => Text.blank_of_wordChar (h.1 c hc)

theorem finishes_captured_word (n : Nat) : Finishes (capture n word) :=
  finishes_of_unbroken unbroken_of_word fun h => absurd h.2 (by decide)

end Words

theorem found_deleteTags (text : List Char) : deleteTags.found (Text.trim text) = deleteTags.found text := by
  apply found_trim
  · decide
  · have hVerb : Begins (keywords ["delete", "remove"]) := begins_keywords (by decide) (by decide)
    exact ((((hVerb.edge_append).append _).append _).append _).append _
  · have hTag : Finishes (keyword "tag") := finishes_keyword (by decide) (by decide)
    exact ((hTag.append _).append_opt (finishes_keyword (by decide) (by decide))).append_edge

theorem found_tagIs (text : List Char) : tagIs.found (Text.trim text) = tagIs.found text := by
  apply found_trim
  · decide
  · have hTag : Begins (keywords ["tag", "hashtag"]) := begins_keywords (by decide) (by decide)
    exact ((((hTag.edge_append).append _).append _).append _).append _
  · exact (finishes_captured_word 1).append _

theorem found_priorityIs (text : List Char) : priorityIs.found (Text.trim text) = priorityIs.found text := by
  apply found_trim
  · decide
  · have hPriority : Begins (keywords ["priority"]) := begins_keywords (by decide) (by decide)
    exact ((((hPriority.edge_append).append _).append _).append _).append _
  · exact (finishes_captured_word 1).append _

theorem found_bangPriority (text : List Char) : bangPriority.found (Text.trim text) = bangPriority.found text := by
  apply found_trim
  · decide
  · have hBang : Begins (char '!') := by
      rintro _ ⟨c, hc, rfl⟩
      obtain rfl := eq_of_beq hc
      exact ⟨'!', rfl, by decide⟩
    exact hBang.append _
  · exact (finishes_captured_word 1).append _

/-! ## Texts without markers -/

/-- The text has no tag marker, or asks for tags to be left out. -/
def Untagged (text : List Char) : Prop :=
  '#' ∉ text ∧ tagIs.found text = false ∨ deleteTags.found text = true

def Unprioritized (text : List Char) : Prop :=
  bangPriority.found text = false ∧ priorityIs.found text = false

theorem Untagged.trim (h : Untagged text) : Untagged (Text.trim text) := by
  unfold Untagged
  rw [found_tagIs, found_deleteTags]
  refine h.imp_left fun ⟨hHash, hTag⟩ => ⟨fun hMem => hHash ?_, hTag⟩
  exact (Text.trim_sublist text).subset hMem

theorem Unprioritized.trim (h : Unprioritized text) : Unprioritized (Text.trim text) := by
  unfold Unprioritized
  rw [found_bangPriority, found_priorityIs]
  exact h

theorem all_hashtag_of_notMem (h : '#' ∉ text) : hashtag.all text = [] := by
  apply all_eq_nil_of_not_found
  rw [Bool.eq_false_iff]
  intro hFound
  obtain ⟨front, _, back, rfl, _, _, rfl, ⟨c, hc, rfl⟩, _⟩ := takes_of_found hFound
  obtain rfl := eq_of_beq hc
  exact h (by simp)

theorem explicitTags_of_untagged (h : Untagged text) : explicitTags text = [] := by
  unfold explicitTags
  split
  · rfl
  · rename_i hKeep
    obtain ⟨hHash, hTag⟩ := h.resolve_right hKeep
    rw [all_hashtag_of_notMem hHash, all_eq_nil_of_not_found hTag]
    rfl

theorem explicitPriority_of_unprioritized (h : Unprioritized text) : explicitPriority text = none := by
  have hBang : bangPriority.search text = none := Option.not_isSome_iff_eq_none.mp (Bool.eq_false_iff.mp h.1)
  have hPriority : priorityIs.search text = none := Option.not_isSome_iff_eq_none.mp (Bool.eq_false_iff.mp h.2)
  unfold explicitPriority
  rw [hBang, hPriority]
  rfl

/-! ## Tasks of texts without markers -/

theorem Made.tags_eq_nil (h : Made text now t) (hText : Untagged text) : t.tags = [] := by
  cases h with
  | generated g h =>
    by_contra hSome
    obtain ⟨hMarked, hKeep⟩ := h.tags hSome
    rcases hText with ⟨hHash, hTag⟩ | hDelete
    · rw [hasTagMarker, hTag, Bool.or_false, List.contains_iff_mem] at hMarked
      exact hHash hMarked
    · exact absurd hDelete (Bool.eq_false_iff.mp hKeep)
  | patterned h =>
    rw [h.tags, explicitTags_of_untagged hText]
    rfl
  | raw h => rw [h, rawTask]

theorem Made.priority_eq_none (h : Made text now t) (hText : Unprioritized text) : t.priority = none := by
  cases h with
  | generated g h =>
    by_contra hSome
    have hMarked := h.priority hSome
    rw [hasPriorityMarker, hText.1, hText.2] at hMarked
    cases hMarked
  | patterned h => rw [h.priority, explicitPriority_of_unprioritized hText]
  | raw h => rw [h, rawTask]

/-- Without a marker in the text there are no tags and no priority, so no two services differ in
them. -/
theorem unmarked_not_invented {run : PipelineRun} (hRun : (pipeline service text now).result.1 = .ok run)
    (hTask : run.task = some t) :
    (Untagged text → t.tags = []) ∧ (Unprioritized text → t.priority = none) ∧
      ∀ (other : Service) (run' : PipelineRun) (t' : ParsedTask),
        (pipeline other text now).result.1 = .ok run' → run'.task = some t' →
          (Untagged text → t'.tags = t.tags) ∧ (Unprioritized text → t'.priority = t.priority) := by
  have hMade := Asking.of_result gives_pipeline_made hRun t hTask
  refine ⟨fun h => hMade.tags_eq_nil h.trim, fun h => hMade.priority_eq_none h.trim, ?_⟩
  intro other run' t' hRun' hTask'
  have hMade' := Asking.of_result gives_pipeline_made hRun' t' hTask'
  constructor
  · intro h
    rw [hMade.tags_eq_nil h.trim, hMade'.tags_eq_nil h.trim]
  · intro h
    rw [hMade.priority_eq_none h.trim, hMade'.priority_eq_none h.trim]

/-- An answer with a tag and a priority that nobody asked for. -/
def inventive : Service where
  generate _ _ := .ok (.str "\x7b\"title\": \"Buy milk\", \"tags\": [\"errands\"], \"priority\": \"high\"\x7d")
  classify _ _ := .error .badStatus

theorem milk_not_invented : ∃ run t,
    (pipeline inventive " buy milk".toList (.on ⟨739020, by decide⟩ .noon)).result.1 = .ok run ∧ run.task = some t ∧
      t.title = "Buy milk" ∧ t.source = .generative ∧ Untagged " buy milk".toList ∧ t.tags = [] ∧
      Unprioritized " buy milk".toList ∧ t.priority = none := by
  have hTask : (pipeline inventive " buy milk".toList (.on ⟨739020, by decide⟩ .noon)).result.1.map (·.task) =
      .ok (some { title := "Buy milk", source := .generative }) := by decide +kernel
  obtain ⟨run, hRun, hTask⟩ := Attempt.map_eq_ok.mp hTask
  have hTags : Untagged " buy milk".toList := .inl (by decide)
  have hPriority : Unprioritized " buy milk".toList := by
    unfold Unprioritized
    decide
  obtain ⟨hNoTags, hNoPriority, _⟩ := unmarked_not_invented hRun hTask
  exact ⟨run, _, hRun, hTask, rfl, rfl, hTags, hNoTags hTags, hPriority, hNoPriority hPriority⟩

end Agenda.Extract
