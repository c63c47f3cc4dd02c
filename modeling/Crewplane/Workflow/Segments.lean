import Crewplane.Workflow.Markdown
/-
# What becomes of the lines of a body

`sectionLines` is the abstract picture of one section: its source lines in order,
less the marker lines, each with the role of the nearest marker above it.
`segmentLines` reads the same off the prompt segments. The two agree when every
cut falls on a line that both ways of counting lines number alike
(`CleanUpTo`).
-/
namespace Crewplane.Workflow

open Crewplane.Lib

abbrev Line := List Char

/-- The lines of the segments, each with its role. -/
def segmentLines (segments : List PromptSegment) : List (PromptSegmentRole × Line) :=
  segments.flatMap fun segment => (sourceLines segment.content.toList).map fun line => (segment.role, line)

/-- The role after a marker. -/
def MarkerEvent.roleAfter (event : MarkerEvent) : PromptSegmentRole :=
  match event.markerKind with
  | .opening => segmentRole (some event.role)
  | .closing => .shared

def MarkerEvent.covers (event : MarkerEvent) (k : Nat) : Bool := event.startLine ≤ k && k < event.endLine

/-- The role of the nearest marker above line `k`. -/
def roleAbove (events : List MarkerEvent) (k : Nat) : PromptSegmentRole :=
  match (events.filter fun event => event.endLine ≤ k).getLast? with
  | some event => event.roleAfter
  | none => .shared

/-- The lines that are no marker lines, with their roles. -/
def sectionLines (lines : List Line) (events : List MarkerEvent) : List (PromptSegmentRole × Line) :=
  lines.zipIdx.filterMap fun entry =>
    if events.any (·.covers entry.2) then none else some (roleAbove events entry.2, entry.1)

/-- The lines from `cursor` on, cut at the remaining markers. -/
def linesFrom (lines : List Line) : List MarkerEvent → PromptSegmentRole → Nat → List (PromptSegmentRole × Line)
  | [], role, cursor => (lines.drop cursor).map fun line => (role, line)
  | event :: events, role, cursor =>
    ((slice lines cursor event.startLine).map fun line => (role, line)) ++
      linesFrom lines events event.roleAfter event.endLine

/-! ## Cutting one section -/

/-- Markers in source order: each starts after the one before it has ended. -/
def Ordered (cursor : Nat) (events : List MarkerEvent) : Prop :=
  match events with
  | [] => True
  | event :: events => cursor ≤ event.startLine ∧ event.startLine < event.endLine ∧ Ordered event.endLine events

/-- The line after the last marker. -/
def lastCut (events : List MarkerEvent) : Nat := (events.getLast?.map (·.endLine)).getD 0

theorem Ordered.le_of_mem {events : List MarkerEvent} {cursor : Nat} (h : Ordered cursor events) :
    ∀ event ∈ events, cursor ≤ event.startLine ∧ event.startLine < event.endLine := by
  induction events generalizing cursor with
  | nil => simp
  | cons first events ih =>
    intro event hevent
    rcases List.mem_cons.mp hevent with rfl | hevent
    · exact ⟨h.1, h.2.1⟩
    · obtain ⟨hstart, hlt⟩ := ih h.2.2 event hevent
      obtain ⟨h1, h2, -⟩ := h
      exact ⟨by omega, hlt⟩

theorem Ordered.le_lastCut {events : List MarkerEvent} {cursor : Nat} (h : Ordered cursor events) :
    ∀ event ∈ events, event.endLine ≤ lastCut events := by
  induction events generalizing cursor with
  | nil => simp
  | cons first events ih =>
    intro event hevent
    cases events with
    | nil =>
      rcases List.mem_singleton.mp hevent with rfl
      simp [lastCut]
    | cons second events =>
      have hlast : lastCut (first :: second :: events) = lastCut (second :: events) := by
        simp [lastCut, List.getLast?_cons]
      rw [hlast]
      rcases List.mem_cons.mp hevent with rfl | hevent
      · have := ih h.2.2 second (by simp)
        have hsecond := h.2.2.1
        have hlt := h.2.2.2.1
        omega
      · exact ih h.2.2 event hevent

theorem filterMap_range (lines : List Line) (start : Nat) (f : Line × Nat → Option (PromptSegmentRole × Line)) (n : Nat) :
    (lines.zipIdx start).filterMap f =
      ((lines.take n).zipIdx start).filterMap f ++ ((lines.drop n).zipIdx (start + n)).filterMap f := by
  conv_lhs => rw [← List.take_append_drop n lines, List.zipIdx_append, List.filterMap_append]
  rcases Nat.le_total n lines.length with hn | hn
  · rw [List.length_take, Nat.min_eq_left hn]
  · simp [List.drop_eq_nil_of_le hn]

theorem mem_zipIdx_range {lines : List Line} {start : Nat} {entry : Line × Nat} (h : entry ∈ lines.zipIdx start) :
    start ≤ entry.2 ∧ entry.2 < start + lines.length := by
  obtain ⟨line, k⟩ := entry
  exact ⟨List.le_snd_of_mem_zipIdx h, List.snd_lt_add_of_mem_zipIdx h⟩

/-- What `sectionLines` keeps of one numbered line. -/
def keepLine (events : List MarkerEvent) (entry : Line × Nat) : Option (PromptSegmentRole × Line) :=
  if events.any (·.covers entry.2) then none else some (roleAbove events entry.2, entry.1)

/-- The role after the last of some markers. -/
def roleAfterAll (events : List MarkerEvent) : PromptSegmentRole :=
  match events.getLast? with
  | some event => event.roleAfter
  | none => .shared

/-- A line between the markers passed and the markers to come. -/
theorem keepLine_between {passed coming : List MarkerEvent} {entry : Line × Nat}
    (hpassed : ∀ event ∈ passed, event.endLine ≤ entry.2)
    (hcoming : ∀ event ∈ coming, entry.2 < event.startLine ∧ event.startLine < event.endLine) :
    keepLine (passed ++ coming) entry = some (roleAfterAll passed, entry.1) := by
  have hcovers : (passed ++ coming).any (·.covers entry.2) = false := by
    rw [List.any_eq_false]
    intro event hevent
    simp only [MarkerEvent.covers, Bool.and_eq_true, decide_eq_true_eq, not_and, not_lt]
    intro hstart
    rcases List.mem_append.mp hevent with hevent | hevent
    · exact hpassed event hevent
    · have := (hcoming event hevent).1
      omega
  have hfilter : ((passed ++ coming).filter fun event => event.endLine ≤ entry.2) = passed := by
    rw [List.filter_append, List.filter_eq_self.mpr, List.filter_eq_nil_iff.mpr, List.append_nil]
    · intro event hevent
      have := hcoming event hevent
      simp only [decide_eq_true_eq, not_le]
      omega
    · intro event hevent
      simpa using hpassed event hevent
  unfold keepLine roleAbove roleAfterAll
  rw [hcovers, hfilter]
  rfl

theorem filterMap_keepLine_between {lines : List Line} {start : Nat} {passed coming : List MarkerEvent}
    (hpassed : ∀ event ∈ passed, event.endLine ≤ start)
    (hcoming : ∀ event ∈ coming, start + lines.length ≤ event.startLine ∧ event.startLine < event.endLine) :
    (lines.zipIdx start).filterMap (keepLine (passed ++ coming)) = lines.map fun line => (roleAfterAll passed, line) := by
  have hkeep : ∀ entry ∈ lines.zipIdx start,
      keepLine (passed ++ coming) entry = (some ∘ fun entry : Line × Nat => (roleAfterAll passed, entry.1)) entry := by
    intro entry hentry
    obtain ⟨hle, hlt⟩ := mem_zipIdx_range hentry
    refine keepLine_between ?_ ?_
    · intro event hevent
      exact Nat.le_trans (hpassed event hevent) hle
    · intro event hevent
      have := hcoming event hevent
      omega
  rw [List.filterMap_congr hkeep, List.filterMap_eq_map]
  conv_rhs => rw [← List.zipIdx_map_fst start lines, List.map_map]
  rfl

theorem filterMap_keepLine_covered {lines : List Line} {start : Nat} {events : List MarkerEvent} {event : MarkerEvent}
    (hevent : event ∈ events) (hstart : event.startLine ≤ start) (hend : start + lines.length ≤ event.endLine) :
    (lines.zipIdx start).filterMap (keepLine events) = [] := by
  rw [List.filterMap_eq_nil_iff]
  intro entry hentry
  obtain ⟨hle, hlt⟩ := mem_zipIdx_range hentry
  unfold keepLine
  rw [if_pos]
  rw [List.any_eq_true]
  refine ⟨event, hevent, ?_⟩
  simp only [MarkerEvent.covers, Bool.and_eq_true, decide_eq_true_eq]
  omega

theorem linesFrom_eq (lines : List Line) (passed coming : List MarkerEvent) (cursor : Nat)
    (hpassed : ∀ event ∈ passed, event.endLine ≤ cursor) (hcoming : Ordered cursor coming) :
    linesFrom lines coming (roleAfterAll passed) cursor =
      ((lines.drop cursor).zipIdx cursor).filterMap (keepLine (passed ++ coming)) := by
  induction coming generalizing passed cursor with
  | nil =>
    rw [filterMap_keepLine_between hpassed (by simp)]
    rfl
  | cons event coming ih =>
    have hall := hcoming.le_of_mem
    obtain ⟨hstart, hlt, hrest⟩ := hcoming
    rw [linesFrom, filterMap_range _ _ _ (event.startLine - cursor)]
    congr 1
    · rw [filterMap_keepLine_between hpassed, slice, List.drop_take]
      intro other hother
      obtain ⟨-, hother'⟩ := hall other hother
      refine ⟨?_, hother'⟩
      have hlen : ((lines.drop cursor).take (event.startLine - cursor)).length ≤ event.startLine - cursor :=
        List.length_take_le _ _
      rcases List.mem_cons.mp hother with rfl | hother
      · omega
      · have := (hrest.le_of_mem other hother).1
        omega
    · have hmem : event ∈ passed ++ event :: coming := by simp
      rw [List.drop_drop, Nat.add_sub_cancel' hstart, filterMap_range _ _ _ (event.endLine - event.startLine),
        filterMap_keepLine_covered hmem (Nat.le_refl _), List.nil_append, List.drop_drop,
        Nat.add_sub_cancel' (Nat.le_of_lt hlt)]
      · have hnext := ih (passed ++ [event]) event.endLine ?_ hrest
        · rw [List.append_assoc, List.singleton_append] at hnext
          rw [← hnext]
          simp [roleAfterAll]
        · intro other hother
          rcases List.mem_append.mp hother with hother | hother
          · have := hpassed other hother
            omega
          · rw [List.mem_singleton.mp hother]
      · have := List.length_take_le (event.endLine - event.startLine) (lines.drop event.startLine)
        omega

theorem sectionLines_eq (lines : List Line) {events : List MarkerEvent} (h : Ordered 0 events) :
    sectionLines lines events = linesFrom lines events .shared 0 := by
  have := linesFrom_eq lines [] events 0 (by simp) h
  rw [List.nil_append, List.drop_zero] at this
  exact this.symm

/-! ## The loop over the markers -/

section Loop

variable {text : List Char} {contentStartLine : Nat} {label : String}

theorem segmentLines_append (segments more : List PromptSegment) :
    segmentLines (segments ++ more) = segmentLines segments ++ segmentLines more := by
  simp [segmentLines]

/-- A block of whole lines adds these lines. -/
theorem segmentLines_appendSegment {lines : List Line} {start stop : Nat} {role : Option ProviderRole}
    {segments : List PromptSegment} {kept : List Line} (hblock : blockText lines start stop = kept.flatten)
    (hkept : sourceLines kept.flatten = kept) :
    segmentLines (appendSegment lines contentStartLine start stop role segments) =
      segmentLines segments ++ kept.map fun line => (segmentRole role, line) := by
  unfold appendSegment
  simp only [hblock]
  split
  · rename_i hnil
    rw [hnil] at hkept
    rw [← hkept]
    simp [sourceLines, linesBy]
  · rw [segmentLines_append]
    simp [segmentLines, hkept]

theorem blockText_of_clean {a b : Nat} (h : CleanUpTo isBoundary isLineEnd text b) :
    blockText (splitlines text) a b = (slice (sourceLines text) a b).flatten := by
  unfold blockText splitlines sourceLines
  rw [slice_linesBy_of_clean isBoundary_of_isLineEnd h]

theorem blockText_rest_of_clean {a : Nat} (h : CleanUpTo isBoundary isLineEnd text a) :
    blockText (splitlines text) a (splitlines text).length =
      (slice (sourceLines text) a (sourceLines text).length).flatten := by
  unfold blockText slice
  rw [List.take_length, List.take_length]
  exact drop_linesBy_of_clean isBoundary_of_isLineEnd h

theorem segmentLines_extractLoop {events : List MarkerEvent} {active : Option ProviderRole} {cursor : Nat}
    {acc segments : List PromptSegment}
    (hclean : ∀ k, k ≤ cursor ∨ (∃ event ∈ events, k ≤ event.endLine) → CleanUpTo isBoundary isLineEnd text k)
    (hordered : Ordered cursor events)
    (h : extractLoop (splitlines text) contentStartLine label events active cursor acc = .ok segments) :
    segmentLines segments = segmentLines acc ++ linesFrom (sourceLines text) events (segmentRole active) cursor := by
  induction events generalizing active cursor acc with
  | nil =>
    have hsegment := @segmentLines_appendSegment contentStartLine _ _ _ active acc _ (blockText_rest_of_clean (hclean cursor (by simp))) (linesBy_slice _ _ _)
    unfold extractLoop at h
    cases active with
    | some role => cases h
    | none =>
      cases h
      rw [hsegment, linesFrom, slice, List.take_length]
  | cons event events ih =>
    obtain ⟨hstart, hlt, hrest⟩ := hordered
    have hcut : CleanUpTo isBoundary isLineEnd text event.startLine :=
      hclean _ (Or.inr ⟨event, by simp, Nat.le_of_lt hlt⟩)
    have hnext : ∀ k, k ≤ event.endLine ∨ (∃ other ∈ events, k ≤ other.endLine) →
        CleanUpTo isBoundary isLineEnd text k := by
      rintro k (hk | ⟨other, hother, hk⟩)
      · exact hclean k (Or.inr ⟨event, by simp, hk⟩)
      · exact hclean k (Or.inr ⟨other, List.mem_cons_of_mem _ hother, hk⟩)
    have hsegment := @segmentLines_appendSegment contentStartLine _ _ _ active acc _ (blockText_of_clean (a := cursor) hcut) (linesBy_slice _ _ _)
    unfold extractLoop at h
    rw [linesFrom, ← List.append_assoc, ← hsegment]
    cases hkind : event.markerKind with
    | opening =>
      cases active with
      | some role => simp [hkind] at h
      | none =>
        simp only [hkind] at h
        rw [ih hnext hrest h]
        simp [MarkerEvent.roleAfter, hkind]
    | closing =>
      cases active with
      | none => simp [hkind] at h
      | some role =>
        simp only [hkind] at h
        split at h
        · cases h
        · split at h
          · cases h
          · rw [ih hnext hrest h]
            simp [MarkerEvent.roleAfter, hkind, segmentRole]

end Loop

/-! ## Blocks in source order -/

theorem Consecutive.le {start stop : Nat} {ranges : List (Nat × Nat)} (h : Consecutive start stop ranges) :
    start ≤ stop := by
  induction ranges generalizing start with
  | nil => exact h
  | cons range ranges ih =>
    have := ih h.2.2
    have := h.1
    have := h.2.1
    omega

theorem Consecutive.weaken {start later stop : Nat} {ranges : List (Nat × Nat)} (h : Consecutive later stop ranges)
    (hle : start ≤ later) : Consecutive start stop ranges := by
  cases ranges with
  | nil => exact Nat.le_trans hle h
  | cons range ranges => exact ⟨Nat.le_trans hle h.1, h.2⟩

theorem Consecutive.sublist {start stop : Nat} {some all : List (Nat × Nat)} (h : Consecutive start stop all)
    (hsub : some.Sublist all) : Consecutive start stop some := by
  induction hsub generalizing start with
  | slnil => exact h
  | cons range _ ih => exact ih (h.2.2.weaken (Nat.le_of_lt (Nat.lt_of_le_of_lt h.1 h.2.1)))
  | cons_cons range _ ih => exact ⟨h.1, h.2.1, ih h.2.2⟩

theorem rootRanges_cons (token : BlockToken) (tokens : List BlockToken) :
    rootRanges (token :: tokens) =
      (if token.level = 0 then token.map.toList else []) ++ rootRanges tokens := by
  unfold rootRanges
  by_cases hlevel : token.level = 0
  · cases hmap : token.map <;> simp [hlevel, hmap]
  · simp [hlevel]

/-- Each marker event is a root block. -/
theorem events_sublist {source nodeId : String} {tokens : List BlockToken} {found : List (Option MarkerEvent)}
    (h : tokens.mapM (markerEventAt source nodeId) = .ok found) :
    ((found.filterMap id).map fun event => (event.startLine, event.endLine)).Sublist (rootRanges tokens) := by
  induction tokens generalizing found with
  | nil =>
    rw [mapM_eq_ok_nil.mp h]
    exact List.Sublist.refl _
  | cons token tokens ih =>
    obtain ⟨first, others, hfirst, hothers, rfl⟩ := mapM_eq_ok_cons.mp h
    rw [rootRanges_cons]
    cases first with
    | none => exact (ih hothers).trans (List.sublist_append_right _ _)
    | some event =>
      have hrange : token.level = 0 ∧ token.map = some (event.startLine, event.endLine) := by
        unfold markerEventAt at hfirst
        cases hmap : token.map with
        | none => simp [hmap] at hfirst
        | some range =>
          rw [hmap] at hfirst
          simp only at hfirst
          split at hfirst
          · simp at hfirst
          · rename_i hblock
            have hlevel : token.level = 0 := by
              by_contra hne
              exact hblock (Or.inr hne)
            refine ⟨hlevel, ?_⟩
            split at hfirst
            · simp only [do_eq_ok] at hfirst
              obtain ⟨role, -, heq⟩ := hfirst
              cases heq
              rfl
            · simp only [do_eq_ok] at hfirst
              obtain ⟨role, -, heq⟩ := hfirst
              cases heq
              rfl
            · split at hfirst <;> simp at hfirst
      rw [hrange.2, if_pos hrange.1]
      exact (ih hothers).cons_cons _

theorem ordered_of_consecutive {events : List MarkerEvent} {start stop : Nat}
    (h : Consecutive start stop (events.map fun event => (event.startLine, event.endLine))) : Ordered start events := by
  induction events generalizing start with
  | nil => trivial
  | cons event events ih => exact ⟨h.1, h.2.1, ih h.2.2⟩

/-- The markers of a section come in source order. -/
theorem ordered_collectMarkerEvents {parse : BlockParser} (hparse : LineMapsOk parse) {text nodeId source : String}
    {events : List MarkerEvent} (h : collectMarkerEvents parse text nodeId source = .ok events) : Ordered 0 events := by
  unfold collectMarkerEvents at h
  rw [do_eq_ok] at h
  obtain ⟨found, hfound, heq⟩ := h
  cases heq
  exact ordered_of_consecutive ((hparse text).sublist (events_sublist hfound))

/-- The segments of a section are its lines, less the marker lines, with the roles of the markers above them. -/
theorem segmentLines_extract {parse : BlockParser} (hparse : LineMapsOk parse) {text source nodeId : String}
    {contentStartLine : Nat} {segments : List PromptSegment}
    (h : extractPromptSegmentPayloads parse text source nodeId contentStartLine = .ok segments)
    (hclean : ∀ events, collectMarkerEvents parse text nodeId source = .ok events →
      CleanUpTo isBoundary isLineEnd text.toList (lastCut events)) :
    ∃ events, collectMarkerEvents parse text nodeId source = .ok events ∧
      segmentLines segments = sectionLines (sourceLines text.toList) events := by
  unfold extractPromptSegmentPayloads at h
  rw [do_eq_ok] at h
  obtain ⟨events, hevents, hloop⟩ := h
  have hordered := ordered_collectMarkerEvents hparse hevents
  refine ⟨events, hevents, ?_⟩
  rw [sectionLines_eq _ hordered, segmentLines_extractLoop ?_ hordered hloop]
  · rfl
  · rintro k (hk | ⟨event, hevent, hk⟩)
    · exact (hclean events hevents).mono (by omega)
    · exact (hclean events hevents).mono (Nat.le_trans hk (hordered.le_lastCut event hevent))

/-! ## Cutting the body -/

/-- The sections of a body, by the lines of the block parser. -/
def bodySections (parse : BlockParser) (nodes : List WorkflowNodeConfig) (body : String) : List MarkdownSection :=
  sectionRanges (sourceLines body.toList).length (declaredHeadings (parse body) (nodes.map (·.id)))

def MarkdownSection.lines (part : MarkdownSection) (body : String) : List Line :=
  slice (sourceLines body.toList) part.contentStartLine part.contentEndLine

/-- No line boundary that CommonMark does not know stands before the end of the last declared
heading, nor in a section before the end of its last marker. -/
structure BodyClean (parse : BlockParser) (nodes : List WorkflowNodeConfig) (body source : String) : Prop where
  headings : ∀ heading ∈ declaredHeadings (parse body) (nodes.map (·.id)),
    CleanUpTo isBoundary isLineEnd body.toList heading.2.2
  markers : ∀ part ∈ bodySections parse nodes body, ∀ events,
    collectMarkerEvents parse (String.ofList (part.lines body).flatten) part.header source = .ok events →
      CleanUpTo isBoundary isLineEnd (part.lines body).flatten (lastCut events)

theorem headingAt_eq_some {token other : BlockToken} {heading : String × Nat × Nat}
    (h : headingAt (token, other) = some heading) : token.level = 0 ∧ token.map = some heading.2 := by
  unfold headingAt at h
  split at h
  · rename_i hheading
    obtain ⟨range, hrange, rfl⟩ := Option.map_eq_some_iff.mp h
    exact ⟨hheading.2.2.1, hrange⟩
  · cases h

theorem headings_sublist (tokens others : List BlockToken) :
    (((tokens.zip others).filterMap headingAt).map Prod.snd).Sublist (rootRanges tokens) := by
  induction tokens generalizing others with
  | nil => simp
  | cons token tokens ih =>
    cases others with
    | nil => simp
    | cons other others =>
      rw [List.zip_cons_cons, List.filterMap_cons, rootRanges_cons]
      cases hfound : headingAt (token, other) with
      | none => exact (ih others).trans (List.sublist_append_right _ _)
      | some heading =>
        obtain ⟨hlevel, hmap⟩ := headingAt_eq_some hfound
        rw [if_pos hlevel, hmap]
        exact (ih others).cons_cons _

theorem consecutive_declaredHeadings {parse : BlockParser} (hparse : LineMapsOk parse) (body : String)
    (ids : List String) :
    Consecutive 0 (sourceLines body.toList).length ((declaredHeadings (parse body) ids).map Prod.snd) :=
  (hparse body).sublist ((List.filter_sublist.map _).trans (headings_sublist _ _))

/-- Clean headings cut the body into the same texts, whichever way its lines are counted. -/
theorem section_texts (text : List Char) (headings : List (String × Nat × Nat)) {start : Nat}
    (hranges : Consecutive start (sourceLines text).length (headings.map Prod.snd))
    (hclean : ∀ heading ∈ headings, CleanUpTo isBoundary isLineEnd text heading.2.2) :
    (sectionRanges (splitlines text).length headings).map
        (fun part => (part.header, blockText (splitlines text) part.contentStartLine part.contentEndLine)) =
      (sectionRanges (sourceLines text).length headings).map
        fun part => (part.header, blockText (sourceLines text) part.contentStartLine part.contentEndLine) := by
  fun_induction sectionRanges (sourceLines text).length headings generalizing start with
  | case1 => rfl
  | case2 heading =>
    simp only [sectionRanges, List.map_cons, List.map_nil]
    rw [blockText_rest_of_clean (hclean heading (by simp))]
    rfl
  | case3 heading next rest ih =>
    have hnext := hranges.2.2.2.1
    simp only [sectionRanges, List.map_cons] at ih ⊢
    rw [ih hranges.2.2 fun other hother => hclean other (List.mem_cons_of_mem _ hother),
      blockText_of_clean ((hclean next (by simp)).mono (Nat.le_of_lt hnext))]
    rfl

/-- The headings and sections hold every line from the first heading on. -/
theorem sections_cover (lines : List Line) (headings : List (String × Nat × Nat)) {start : Nat}
    (hranges : Consecutive start lines.length (headings.map Prod.snd)) :
    ∀ first ∈ (sectionRanges lines.length headings).head?,
      lines.drop first.headerStartLine = (sectionRanges lines.length headings).flatMap fun part =>
        slice lines part.headerStartLine part.contentStartLine ++ slice lines part.contentStartLine part.contentEndLine := by
  have hcut : ∀ a b, a ≤ b → lines.drop a = slice lines a b ++ lines.drop b := by
    intro a b hab
    rw [slice, List.drop_take]
    conv_lhs => rw [← List.take_append_drop (b - a) (lines.drop a), List.drop_drop, Nat.add_sub_cancel' hab]
  fun_induction sectionRanges lines.length headings generalizing start with
  | case1 => simp
  | case2 heading =>
    rintro first hfirst
    cases hfirst
    rw [hcut _ _ (Nat.le_of_lt hranges.2.1)]
    simp [slice]
  | case3 heading next rest ih =>
    rintro first hfirst
    cases hfirst
    obtain ⟨-, hlt, hnext⟩ := hranges
    rw [List.flatMap_cons, hcut _ _ (Nat.le_of_lt hlt), hcut _ _ hnext.1, List.append_assoc]
    congr 2
    obtain ⟨part, hpart, hstart⟩ : ∃ part, (sectionRanges lines.length (next :: rest)).head? = some part ∧
        part.headerStartLine = next.2.1 := by
      cases rest <;> exact ⟨_, rfl, rfl⟩
    rw [← hstart]
    exact ih hnext part hpart

theorem header_mem_of_section {count : Nat} {headings : List (String × Nat × Nat)} {part : MarkdownSection}
    (h : part ∈ sectionRanges count headings) : ∃ heading ∈ headings, part.header = heading.1 := by
  fun_induction sectionRanges count headings with
  | case1 => simp at h
  | case2 heading =>
    rw [List.mem_singleton.mp h]
    exact ⟨heading, by simp, rfl⟩
  | case3 heading next rest ih =>
    rcases List.mem_cons.mp h with rfl | h
    · exact ⟨heading, by simp, rfl⟩
    · obtain ⟨other, hother, heq⟩ := ih h
      exact ⟨other, List.mem_cons_of_mem _ hother, heq⟩

/-- The parsed sections are those of the block parser, with their text. -/
theorem parsed_sections {parse : BlockParser} (hparse : LineMapsOk parse) {nodes : List WorkflowNodeConfig}
    {body source : String} {bodyStartLine : Nat} (hclean : BodyClean parse nodes body source) :
    (parseWorkflowBody parse body (nodes.map (·.id)) bodyStartLine).sections.map (fun part => (part.header, part.text)) =
      (bodySections parse nodes body).map fun part => (part.header, String.ofList (part.lines body).flatten) := by
  have htexts := section_texts body.toList _ (consecutive_declaredHeadings hparse body _) hclean.headings
  have := congrArg (List.map fun entry : String × List Char => (entry.1, String.ofList entry.2)) htexts
  simp only [List.map_map] at this
  unfold parseWorkflowBody
  simp only [List.map_map]
  exact this

/-- The texts parsed for a node are those of its sections. -/
theorem nodeSections_texts {parse : BlockParser} (hparse : LineMapsOk parse) {nodes : List WorkflowNodeConfig}
    {body source : String} {bodyStartLine : Nat} (hclean : BodyClean parse nodes body source) (id : String) :
    ((parseWorkflowBody parse body (nodes.map (·.id)) bodyStartLine).nodeSections id).map (·.text) =
      ((bodySections parse nodes body).filter (·.header = id)).map fun part => String.ofList (part.lines body).flatten := by
  have hparsed := congrArg (fun entries => (entries.filter fun entry : String × String => entry.1 = id).map Prod.snd)
    (@parsed_sections _ hparse _ _ _ bodyStartLine hclean)
  simp only [List.filter_map, List.map_map] at hparsed
  exact hparsed

theorem le_one_of_validated {nodes : List WorkflowNodeConfig} {parsed : ParsedWorkflowBody} {source : String}
    (h : validateNodeSections nodes parsed source = .ok ()) {id : String} (hid : id ∈ nodes.map (·.id)) :
    (parsed.nodeSections id).length ≤ 1 := by
  unfold validateNodeSections at h
  simp only [require_eq_ok, List.append_eq_nil_iff, List.flatMap_eq_nil_iff] at h
  have hnone := h.1 id (by simpa using hid)
  unfold missingOrDuplicate at hnone
  by_contra hmany
  have hzero : ¬(parsed.nodeSections id).length = 0 := by omega
  have htwo : 1 < (parsed.nodeSections id).length := by omega
  simp [hzero, htwo] at hnone

theorem payload_entry {parse : BlockParser} {nodes : List WorkflowNodeConfig} {parsed : ParsedWorkflowBody}
    {source : String} {payload : List (String × List PromptSegment)}
    (h : nodes.mapM (buildNodePayload parse parsed source) = .ok payload) :
    payload.map Prod.fst = nodes.map (·.id) ∧
      ∀ entry ∈ nodes.zip payload, buildNodePayload parse parsed source entry.1 = .ok entry.2 := by
  induction nodes generalizing payload with
  | nil =>
    rw [mapM_eq_ok_nil.mp h]
    simp
  | cons node nodes ih =>
    obtain ⟨first, others, hfirst, hothers, rfl⟩ := mapM_eq_ok_cons.mp h
    obtain ⟨hids, hentries⟩ := ih hothers
    have hid : first.1 = node.id := by
      have hpair := hfirst
      unfold buildNodePayload at hpair
      simp only [do_eq_ok] at hpair
      obtain ⟨segments, -, heq⟩ := hpair
      cases heq
      rfl
    refine ⟨by simp [hid, hids], ?_⟩
    intro entry hentry
    rcases List.mem_cons.mp hentry with rfl | hentry
    · exact hfirst
    · exact hentries entry hentry

/-! ## Where each line goes -/

/-- A body without any other line boundary is clean. -/
theorem bodyClean_of_all {parse : BlockParser} {nodes : List WorkflowNodeConfig} {body source : String}
    (h : body.toList.all (fun c => isBoundary c == isLineEnd c) = true) : BodyClean parse nodes body source := by
  have hchar : ∀ c ∈ body.toList, isBoundary c = isLineEnd c := by simpa using h
  have htake : ∀ (text : List Char) (k : Nat), ∀ c ∈ ((sourceLines text).take k).flatten, c ∈ text := by
    intro text k c hc
    rw [← @flatten_linesBy isLineEnd text, ← List.take_append_drop k (linesBy isLineEnd text),
      List.flatten_append]
    exact List.mem_append_left _ hc
  refine ⟨?_, ?_⟩
  · intro heading _ c hc
    exact hchar c (htake _ _ c (List.mem_of_mem_dropLast hc))
  · intro part _ events _ c hc
    have hpart := htake _ _ c (List.mem_of_mem_dropLast hc)
    obtain ⟨line, hline, hcline⟩ := List.mem_flatten.mp hpart
    refine hchar c (htake body.toList part.contentEndLine c ?_)
    exact List.mem_flatten.mpr ⟨line, List.mem_of_mem_drop hline, hcline⟩

/-! ### A section with a role block -/

def sampleSection : String := "hi\n<!-- crewplane:executor -->\ndo\n<!-- /crewplane:executor -->\n"

def sampleBody : String := "## a\n" ++ sampleSection

/-- The block parser on the sample texts. -/
def sampleParse : BlockParser := fun text =>
  if text = sampleBody then
    [⟨.headingOpen, "h2", 0, some (0, 1), ""⟩, ⟨.inline, "", 1, some (0, 1), "a"⟩, ⟨.other, "p", 0, some (1, 2), ""⟩,
      ⟨.htmlBlock, "", 0, some (2, 3), "<!-- crewplane:executor -->\n"⟩, ⟨.other, "p", 0, some (3, 4), ""⟩,
      ⟨.htmlBlock, "", 0, some (4, 5), "<!-- /crewplane:executor -->\n"⟩]
  else if text = sampleSection then
    [⟨.other, "p", 0, some (0, 1), ""⟩, ⟨.htmlBlock, "", 0, some (1, 2), "<!-- crewplane:executor -->\n"⟩,
      ⟨.other, "p", 0, some (2, 3), ""⟩, ⟨.htmlBlock, "", 0, some (3, 4), "<!-- /crewplane:executor -->\n"⟩]
  else []

theorem sampleParse_ok : LineMapsOk sampleParse := by
  intro text
  unfold sampleParse
  split_ifs with hbody hsection
  · subst hbody
    decide +kernel
  · subst hsection
    decide +kernel
  · exact Nat.zero_le _

def samplePayload : List (String × List PromptSegment) :=
  [("a", [⟨.shared, "hi\n", (4, 5)⟩, ⟨.executor, "do\n", (6, 7)⟩])]

def groupBody : String := "## g\n<!-- note -->\n"

def groupParse : BlockParser := fun text =>
  if text = groupBody then
    [⟨.headingOpen, "h2", 0, some (0, 1), ""⟩, ⟨.inline, "", 1, some (0, 1), "g"⟩,
      ⟨.htmlBlock, "", 0, some (1, 2), "<!-- note -->\n"⟩]
  else if text = "<!-- note -->\n" then [⟨.htmlBlock, "", 0, some (0, 1), "<!-- note -->\n"⟩]
  else []

theorem groupParse_ok : LineMapsOk groupParse := by
  intro text
  unfold groupParse
  split_ifs with hbody hsection
  · subst hbody
    decide +kernel
  · subst hsection
    decide +kernel
  · exact Nat.zero_le _

end Crewplane.Workflow
