import Callifornia.Client.Offer
import Callifornia.Sfu.FixedSlots

/-! # The client's offers fit the slots of the SFU

The client rewrites an offer, the SFU reads it line by line. Both see the same lines: the
session part, and the media sections in their order.
-/

namespace Callifornia.OfferPolicy

open Text Client Sfu

/-! ## The lines of an offer -/

/-- The session part, and each media section with its `m=` line. -/
def parts : List Chars → List Chars × List (Chars × List Chars)
  | [] => ([], [])
  | line :: all =>
      if mediaPrefix <+: line then ([], (line, (parts all).1) :: (parts all).2)
      else (line :: (parts all).1, (parts all).2)

abbrev IsAudio (media : Chars) : Prop := "m=audio".toList <+: media

abbrev IsVideo (media : Chars) : Prop := "m=video".toList <+: media

/-- A line that starts with `a=mid:`, whatever the case of its letters. -/
def SpellsMid (line : Chars) : Prop := (line.take 6).map Char.toLower = "a=mid:".toList

instance : DecidablePred SpellsMid := fun _ => decEq _ _

/-- The lines of an offer with an audio section, one or two video sections and a mid in each. -/
structure Regular (all : List Chars) : Prop where
  plain : ∀ line ∈ all, Plain line
  session : (parts all).1 ≠ []
  audio : (parts all).2.countP (IsAudio ·.1) = 1
  video : (parts all).2.countP (IsVideo ·.1) = 1 ∨ (parts all).2.countP (IsVideo ·.1) = 2
  kinds : ∀ part ∈ (parts all).2, IsAudio part.1 ∨ IsVideo part.1
  mids : ∀ part ∈ (parts all).2, (part.2.filter isMid).length = 1
  outside : ∀ line ∈ (parts all).1, ¬ isMid line
  spelled : ∀ line ∈ all, SpellsMid line → isMid line

/-- The mids of the slots that some sections take after so many video sections. -/
def fixedMids : ℕ → List Chars → List Chars
  | _, [] => []
  | videos, media :: rest =>
      if IsAudio media then "audio_main".toList :: fixedMids videos rest
      else (if videos = 0 then "video_camera".toList else "video_screen".toList) ::
        fixedMids (videos + 1) rest

/-- **The offer takes the fixed slots.** It is accepted, each section has the one mid of its
slot, and each bundle group lists these mids. -/
structure TakesSlots (all : List Chars) (offer : Chars) : Prop where
  accepted : validateFixedSlotsOffer offer = .ok ()
  mids : (parts ((rawLines offer).map trimReturn)).2.map
      (fun part => (part.1, part.2.filter isMid)) =
    ((parts all).2.map Prod.fst).zip
      ((fixedMids 0 ((parts all).2.map Prod.fst)).map fun mid => [midPrefix ++ mid])
  bundle : ∀ line ∈ (parts ((rawLines offer).map trimReturn)).1, bundlePrefix <+: line →
    line = "a=group:BUNDLE ".toList ++
      [' '].intercalate (fixedMids 0 ((parts all).2.map Prod.fst))

/-! ## Parts -/

section Parts

variable {session all : List Chars} {sections : List (Chars × List Chars)} {line : Chars}

/-- The lines of some sections. -/
def sectionLines (sections : List (Chars × List Chars)) : List Chars :=
  sections.flatMap fun part => part.1 :: part.2

/-- Some lines are a session part and sections. -/
structure Divided (session : List Chars) (sections : List (Chars × List Chars)) : Prop where
  session : ∀ line ∈ session, ¬ mediaPrefix <+: line
  media : ∀ part ∈ sections, mediaPrefix <+: part.1
  bodies : ∀ part ∈ sections, ∀ line ∈ part.2, ¬ mediaPrefix <+: line

/-- The parts of an offer put together are its lines. -/
theorem parts_divided (all : List Chars) : Divided (parts all).1 (parts all).2 ∧
    (parts all).1 ++ sectionLines (parts all).2 = all := by
  induction all with
  | nil => exact ⟨⟨nofun, nofun, nofun⟩, rfl⟩
  | cons line all ih =>
      obtain ⟨divided, whole⟩ := ih
      rw [parts]
      split
      · rename_i opens
        refine ⟨⟨nofun, List.forall_mem_cons.mpr ⟨opens, divided.media⟩,
          List.forall_mem_cons.mpr ⟨divided.session, divided.bodies⟩⟩, ?_⟩
        exact congrArg (line :: ·) whole
      · rename_i other
        refine ⟨⟨List.forall_mem_cons.mpr ⟨other, divided.session⟩, divided.media,
          divided.bodies⟩, ?_⟩
        exact congrArg (line :: ·) whole

/-- Lines in front of the first section belong to the session part. -/
theorem parts_session (plain : ∀ line ∈ session, ¬ mediaPrefix <+: line) :
    parts (session ++ all) = (session ++ (parts all).1, (parts all).2) := by
  induction session with
  | nil => rfl
  | cons line session ih =>
      obtain ⟨other, plain⟩ := List.forall_mem_cons.mp plain
      rw [List.cons_append, parts, if_neg other, ih plain]
      rfl

/-- An offer is taken apart into the parts it was put together from. -/
theorem parts_of_divided (divided : Divided session sections) :
    parts (session ++ sectionLines sections) = (session, sections) := by
  have inner : parts (sectionLines sections) = ([], sections) := by
    obtain ⟨-, media, bodies⟩ := divided
    induction sections with
    | nil => rfl
    | cons part sections ih =>
        obtain ⟨opens, media⟩ := List.forall_mem_cons.mp media
        obtain ⟨body, bodies⟩ := List.forall_mem_cons.mp bodies
        have cut : sectionLines (part :: sections) =
            part.1 :: (part.2 ++ sectionLines sections) := rfl
        rw [cut, parts, if_pos opens, parts_session body, ih media bodies, List.append_nil]
  rw [parts_session divided.session, inner, List.append_nil]

/-- Blank lines are in no one's way. -/
theorem parts_filter : parts (all.filter nonblank) = ((parts all).1.filter nonblank,
    (parts all).2.map fun part => (part.1, part.2.filter nonblank)) := by
  induction all with
  | nil => rfl
  | cons line all ih =>
      by_cases blank : line = []
      · subst line
        have other : ¬ mediaPrefix <+: [] := by decide
        rw [parts, if_neg other, List.filter_cons_of_neg nonblank_nil, ih,
          List.filter_cons_of_neg nonblank_nil]
      · rw [List.filter_cons_of_pos (nonblank_eq_true blank), parts, parts]
        split
        · rw [ih]
          rfl
        · rw [ih, List.filter_cons_of_pos (nonblank_eq_true blank)]

end Parts

/-! ## What the client splits an offer into -/

section Splitting

variable {session all body : List Chars} {sections : List (Chars × List Chars)}
  {line rest first text : Chars} {newline : Bool}

/-- CRLF is read as a newline. -/
theorem replace_crlf (plain : ∀ line ∈ all, Plain line) :
    replace ['\r', '\n'] ['\n'] (unlines ['\r', '\n'] all) = unlines ['\n'] all := by
  induction all with
  | nil => rfl
  | cons line all ih =>
      obtain ⟨now, plain⟩ := List.forall_mem_cons.mp plain
      have cut (ending : Chars) : unlines ending (line :: all) =
          line ++ (ending ++ unlines ending all) := List.append_assoc ..
      have matched : replaceFrom ['\r', '\n'] ['\n'] 0 (['\r', '\n'] ++ unlines ['\r', '\n'] all) =
          ['\n'] ++ replaceFrom ['\r', '\n'] ['\n'] 0 (unlines ['\r', '\n'] all) :=
        replaceFrom_match
      rw [cut, cut, replace, replaceFrom_append now.2, matched]
      exact congrArg (fun text => line ++ (['\n'] ++ text)) (ih plain)

/-- A line after which no section starts. -/
theorem split_line (plain : '\n' ∉ first) (miss : ¬ mediaPrefix <+: text) :
    split ('\n' :: mediaPrefix) (first ++ '\n' :: text) =
      (split ('\n' :: mediaPrefix) text).modifyHead (first ++ '\n' :: ·) := by
  have other : ¬ ('\n' :: mediaPrefix) <+: '\n' :: text :=
    fun starts => miss (List.cons_prefix_cons.mp starts).2
  rw [split, splitFrom_append plain, splitFrom_miss other, List.modifyHead_modifyHead]
  rfl

/-- Lines that open no section stay in one piece. -/
theorem split_ended (plain : ∀ line ∈ first :: body, Plain line)
    (other : ∀ line ∈ body, ¬ mediaPrefix <+: line) :
    split ('\n' :: mediaPrefix) (ended newline (first :: body)) =
      [ended newline (first :: body)] := by
  induction body generalizing first with
  | nil =>
      have now := (plain first List.mem_cons_self).1
      have last : splitFrom ('\n' :: mediaPrefix) 0 (if newline then ['\n'] else []) =
          [if newline then ['\n'] else []] := by
        cases newline <;> decide
      rw [ended_singleton, split, splitFrom_append now, last]
      rfl
  | cons line body ih =>
      obtain ⟨now, plain⟩ := List.forall_mem_cons.mp plain
      obtain ⟨not, other⟩ := List.forall_mem_cons.mp other
      rw [ended_cons (List.cons_ne_nil _ _), split_line now.1
        (mt (prefix_ended_iff (by decide)).mp not), ih plain other]
      rfl

/-- The next section ends the piece. -/
theorem split_followed (plain : ∀ line ∈ first :: body, Plain line)
    (other : ∀ line ∈ body, ¬ mediaPrefix <+: line) :
    split ('\n' :: mediaPrefix) (joinLines (first :: body) ++ '\n' :: (mediaPrefix ++ rest)) =
      joinLines (first :: body) :: split ('\n' :: mediaPrefix) rest := by
  induction body generalizing first with
  | nil =>
      have now := (plain first List.mem_cons_self).1
      have next : splitFrom ('\n' :: mediaPrefix) 0 ('\n' :: (mediaPrefix ++ rest)) =
          [] :: splitFrom ('\n' :: mediaPrefix) 0 rest := splitFrom_match
      have joined : joinLines [first] = first := List.intercalate_singleton
      rw [joined, split, splitFrom_append now, next]
      exact congrArg (· :: _) (List.append_nil first)
  | cons line body ih =>
      obtain ⟨now, plain⟩ := List.forall_mem_cons.mp plain
      obtain ⟨not, other⟩ := List.forall_mem_cons.mp other
      have miss : ¬ mediaPrefix <+: joinLines (line :: body) ++ '\n' :: (mediaPrefix ++ rest) := by
        intro starts
        have starts := prefix_of_prefix_newline (by decide) starts
        rw [← ended_false] at starts
        exact not ((prefix_ended_iff (by decide)).mp starts)
      rw [joinLines_cons (List.cons_ne_nil _ _), List.append_assoc, List.cons_append,
        split_line now.1 miss, ih plain other]
      rfl

/-- The text of a section, without its first two characters. -/
structure IsText (text : Chars) (part : Chars × List Chars) : Prop where
  lines : lines (mediaPrefix ++ text) = part.1 :: part.2 ∨
    part.1 :: part.2 = Text.lines (mediaPrefix ++ text) ++ [[]]
  starts : ∀ start, '\n' ∉ start → (start <+: mediaPrefix ++ text ↔ start <+: part.1)

/-- The text of a section has its lines. -/
theorem isText_of_lines {part : Chars × List Chars} {text tail : Chars}
    (same : part.1 = mediaPrefix ++ tail)
    (lines : lines (mediaPrefix ++ text) = part.1 :: part.2 ∨
      part.1 :: part.2 = Text.lines (mediaPrefix ++ text) ++ [[]])
    (begins : text = tail ∨ ∃ more, text = tail ++ '\n' :: more) : IsText text part := by
  refine ⟨lines, fun start plain => ?_⟩
  rw [same]
  rcases begins with rfl | ⟨more, rfl⟩
  · exact Iff.rfl
  · rw [← List.append_assoc]
    exact ⟨prefix_of_prefix_newline plain, fun starts => starts.trans (List.prefix_append _ _)⟩

/-- The text of the sections is split into them. -/
theorem split_sections (nonempty : sections ≠ [])
    (plain : ∀ line ∈ sectionLines sections, Plain line)
    (media : ∀ part ∈ sections, mediaPrefix <+: part.1)
    (bodies : ∀ part ∈ sections, ∀ line ∈ part.2, ¬ mediaPrefix <+: line) :
    ∃ rest, unlines ['\n'] (sectionLines sections) = mediaPrefix ++ rest ∧
      List.Forall₂ IsText (split ('\n' :: mediaPrefix) rest) sections := by
  induction sections with
  | nil => exact absurd rfl nonempty
  | cons part sections ih =>
      obtain ⟨opens, media⟩ := List.forall_mem_cons.mp media
      obtain ⟨body, bodies⟩ := List.forall_mem_cons.mp bodies
      obtain ⟨tail, same⟩ := opens
      have own (line : Chars) (member : line ∈ part.1 :: part.2) : Plain line :=
        plain line (List.mem_append_left _ member)
      have later (line : Chars) (member : line ∈ sectionLines sections) : Plain line :=
        plain line (List.mem_append_right _ member)
      have rest (line : Chars) (member : line ∈ tail :: part.2) : Plain line := by
        rcases List.mem_cons.mp member with rfl | member
        · have whole := own part.1 List.mem_cons_self
          rw [← same] at whole
          exact ⟨fun inside => whole.1 (List.mem_append_right _ inside),
            fun inside => whole.2 (List.mem_append_right _ inside)⟩
        · exact own line (List.mem_cons_of_mem _ member)
      have cut (ending : Chars) : unlines ending (part.1 :: part.2) =
          mediaPrefix ++ unlines ending (tail :: part.2) := by
        simp only [unlines, List.flatMap_cons, ← same, List.append_assoc]
      have joined : joinLines (part.1 :: part.2) = mediaPrefix ++ joinLines (tail :: part.2) := by
        cases part.2 with
        | nil =>
            rw [joinLines, joinLines, List.intercalate_singleton, List.intercalate_singleton, same]
        | cons line more =>
            rw [joinLines_cons (List.cons_ne_nil _ _), joinLines_cons (List.cons_ne_nil _ _),
              ← same, List.append_assoc]
      have whole : unlines ['\n'] (sectionLines (part :: sections)) =
          mediaPrefix ++ (unlines ['\n'] (tail :: part.2) ++
            unlines ['\n'] (sectionLines sections)) := by
        rw [← List.append_assoc, ← cut]
        exact List.flatMap_append
      refine ⟨_, whole, ?_⟩
      by_cases last : sections = []
      · subst sections
        have none : unlines ['\n'] (sectionLines []) = [] := rfl
        have alone : split ('\n' :: mediaPrefix) (unlines ['\n'] (tail :: part.2)) =
            [unlines ['\n'] (tail :: part.2)] := by
          rw [unlines_eq_ended (List.cons_ne_nil _ _)]
          exact split_ended rest body
        rw [none, List.append_nil, alone]
        refine .cons (isText_of_lines same.symm (.inl ?_) ?_) .nil
        · rw [← cut]
          exact lines_unlines own
        · refine .inr ⟨unlines ['\n'] part.2, ?_⟩
          simp only [unlines, List.flatMap_cons, List.append_assoc, List.singleton_append]
      · obtain ⟨next, text, texts⟩ := ih last later media bodies
        rw [text, unlines_append (List.cons_ne_nil _ _), split_followed rest body]
        refine .cons (isText_of_lines same.symm ?_ ?_) texts
        · rw [← joined]
          exact lines_joinLines own
        · cases part.2 with
          | nil => exact .inl List.intercalate_singleton
          | cons line more => exact .inr ⟨_, joinLines_cons (List.cons_ne_nil _ _)⟩

end Splitting

/-! ## What the client makes of it -/

section Rewriting

variable {sections : List (Chars × List Chars)} {part : Chars × List Chars} {text mid : Chars}
  {midMap : MidMap} {all : List Chars}

/-- A line with its mid replaced, if it has one. -/
def setMid (mid line : Chars) : Chars := if isMid line then midPrefix ++ mid else line

/-- A section with its mid replaced. -/
def placeMid (part : Chars × List Chars) (mid : Chars) : Chars × List Chars :=
  (part.1, part.2.map (setMid mid))

/-- A section's first line is no mid. -/
theorem not_mid_of_media {line : Chars} (media : mediaPrefix <+: line) : ¬ isMid line := by
  intro starts
  obtain ⟨rest, rfl⟩ := media
  exact absurd (List.cons_prefix_cons.mp (of_decide_eq_true starts)).1 (by decide)

/-- Setting a mid leaves the first line of a section. -/
theorem setMid_media {line : Chars} (media : mediaPrefix <+: line) : setMid mid line = line :=
  if_neg (not_mid_of_media media)

/-- Setting a mid adds no line end. -/
theorem plain_setMid {line : Chars} (fixed : Plain mid) (plain : Plain line) :
    Plain (setMid mid line) := by
  unfold setMid
  split
  · constructor
    · intro member
      rcases List.mem_append.mp member with own | own
      · exact absurd own (by decide)
      · exact fixed.1 own
    · intro member
      rcases List.mem_append.mp member with own | own
      · exact absurd own (by decide)
      · exact fixed.2 own
  · exact plain

/-- Whether a blank line at the end is there makes no difference. -/
theorem map_isText {α : Type} (isText : IsText text part) (read : List Chars → List α)
    (blank : ∀ all, read (all ++ [[]]) = read all) :
    read (lines (mediaPrefix ++ text)) = read (part.1 :: part.2) := by
  rcases isText.lines with same | same
  · rw [same]
  · rw [same, blank]

/-- A line of the text is a line of the section. -/
theorem mem_of_isText (isText : IsText text part) {line : Chars}
    (member : line ∈ lines (mediaPrefix ++ text)) : line ∈ part.1 :: part.2 := by
  rcases isText.lines with same | same
  · exact same ▸ member
  · exact same ▸ List.mem_append_left _ member

/-- A section is rewritten to its lines with the new mid. -/
theorem content_rewriteSectionMid (isText : IsText text part) (media : mediaPrefix <+: part.1)
    (plain : ∀ line ∈ part.1 :: part.2, Plain line) (fixed : Plain mid) :
    content (rewriteSectionMid (mediaPrefix ++ text) mid midMap).1 =
        (sectionLines [placeMid part mid]).filter nonblank ∧
      '\r' ∉ (rewriteSectionMid (mediaPrefix ++ text) mid midMap).1 := by
  have rewritten (line : Chars)
      (member : line ∈ (lines (mediaPrefix ++ text)).map (setMid mid)) : Plain line := by
    obtain ⟨old, listed, rfl⟩ := List.mem_map.mp member
    exact plain_setMid fixed (plain old (mem_of_isText isText listed))
  constructor
  · have read := content_joinLines fun line member => (rewritten line member).1
    have blank (all : List Chars) : ((all ++ [[]]).map (setMid mid)).filter nonblank =
        (all.map (setMid mid)).filter nonblank := by
      rw [List.map_append, List.filter_append]
      exact List.append_nil _
    have same := map_isText isText (fun all => (all.map (setMid mid)).filter nonblank) blank
    rw [List.map_cons, setMid_media media] at same
    exact (read.trans same).trans (congrArg (List.filter nonblank) (List.append_nil _).symm)
  · exact plain_joinLines rewritten

/-- A section with one mid adds one pair to the map. -/
theorem midMap_rewriteSectionMid (isText : IsText text part) (media : mediaPrefix <+: part.1)
    (one : (part.2.filter isMid).length = 1) :
    (rewriteSectionMid (mediaPrefix ++ text) mid midMap).2.map Prod.snd =
      midMap.map Prod.snd ++ [mid] := by
  have blank (all : List Chars) : (all ++ [[]]).filter isMid =
      all.filter isMid := by
    rw [List.filter_append]
    exact List.append_nil _
  have found : (lines (mediaPrefix ++ text)).filter isMid =
      part.2.filter isMid := by
    rw [map_isText isText (List.filter isMid) blank]
    exact List.filter_cons_of_neg (not_mid_of_media media)
  obtain ⟨line, only⟩ := List.length_eq_one_iff.mp one
  simp only [rewriteSectionMid, found, only, List.map_append, List.map_cons, List.map_nil]

/-- The fixed mids have no line ends. -/
theorem plain_fixedMids {mids : List Chars} {videos : ℕ} {medias : List Chars}
    (same : fixedMids videos medias = mids) : ∀ mid ∈ mids, Plain mid := by
  induction medias generalizing videos mids with
  | nil =>
      subst same
      exact nofun
  | cons media medias ih =>
      subst same
      unfold fixedMids
      split
      · exact List.forall_mem_cons.mpr ⟨by decide, ih rfl⟩
      · refine List.forall_mem_cons.mpr ⟨?_, ih rfl⟩
        split <;> decide

/-- **The sections get the mids of their slots.** -/
theorem rewriteSections_spec {texts : List Chars} (isTexts : List.Forall₂ IsText texts sections)
    (media : ∀ part ∈ sections, mediaPrefix <+: part.1)
    (kinds : ∀ part ∈ sections, IsAudio part.1 ∨ IsVideo part.1)
    (one : ∀ part ∈ sections, (part.2.filter isMid).length = 1)
    (plain : ∀ line ∈ sectionLines sections, Plain line) (videos : ℕ) (midMap : MidMap) :
    (rewriteSections texts videos midMap).2.map Prod.snd =
        midMap.map Prod.snd ++ fixedMids videos (sections.map Prod.fst) ∧
      ((rewriteSections texts videos midMap).1.map content).flatten =
        (sectionLines (sections.zipWith placeMid
          (fixedMids videos (sections.map Prod.fst)))).filter nonblank ∧
      ∀ text ∈ (rewriteSections texts videos midMap).1, '\r' ∉ text := by
  induction isTexts generalizing videos midMap with
  | nil => exact ⟨(List.append_nil _).symm, rfl, nofun⟩
  | @cons text part texts sections isText _ ih =>
      obtain ⟨opens, media⟩ := List.forall_mem_cons.mp media
      obtain ⟨kind, kinds⟩ := List.forall_mem_cons.mp kinds
      obtain ⟨here, one⟩ := List.forall_mem_cons.mp one
      have own (line : Chars) (member : line ∈ part.1 :: part.2) : Plain line :=
        plain line (List.mem_append_left _ member)
      have later (line : Chars) (member : line ∈ sectionLines sections) : Plain line :=
        plain line (List.mem_append_right _ member)
      -- the section and those after it, whatever its mid and the count of sections is
      have step (mid : Chars) (fixed : Plain mid) (count : ℕ) :
          let first := rewriteSectionMid (mediaPrefix ++ text) mid midMap
          let rest := rewriteSections texts count first.2
          rest.2.map Prod.snd = midMap.map Prod.snd ++
              mid :: fixedMids count (sections.map Prod.fst) ∧
            ((first.1 :: rest.1).map content).flatten =
              (sectionLines (placeMid part mid :: sections.zipWith placeMid
                (fixedMids count (sections.map Prod.fst)))).filter nonblank ∧
            ∀ text ∈ first.1 :: rest.1, '\r' ∉ text := by
        intro first rest
        obtain ⟨mids, contents, clean⟩ := ih media kinds one later count first.2
        obtain ⟨read, tidy⟩ := @content_rewriteSectionMid part text mid midMap isText opens own
          fixed
        refine ⟨?_, ?_, List.forall_mem_cons.mpr ⟨tidy, clean⟩⟩
        · rw [mids, midMap_rewriteSectionMid isText opens here, List.append_assoc]
          rfl
        · rw [List.map_cons, List.flatten_cons, contents, read, ← List.filter_append]
          exact congrArg (List.filter nonblank) (List.flatMap_append.symm)
      have audio_iff : "m=audio".toList <+: mediaPrefix ++ text ↔ IsAudio part.1 :=
        isText.starts _ (by decide)
      have video_iff : "m=video".toList <+: mediaPrefix ++ text ↔ IsVideo part.1 :=
        isText.starts _ (by decide)
      rw [List.map_cons, rewriteSections, fixedMids]
      by_cases audio : IsAudio part.1
      · rw [if_pos (audio_iff.mpr audio), if_pos audio]
        exact step _ (by decide) videos
      · rw [if_neg (mt audio_iff.mp audio), if_neg audio,
          if_pos (video_iff.mpr (kind.resolve_left audio))]
        have first : videos + 1 = 1 ↔ videos = 0 := by omega
        simp only [first]
        exact step _ (by split <;> decide) (videos + 1)

end Rewriting

section Assembling

variable {session all mids texts : List Chars} {sections : List (Chars × List Chars)}
  {out text : Chars} {midMap : MidMap}

/-- A line with the mids of a bundle group replaced, if it is one. -/
def setBundle (mids : List Chars) (line : Chars) : Chars :=
  if ¬ bundlePrefix <+: line then line
  else "a=group:BUNDLE ".toList ++ [' '].intercalate mids

/-- A section is appended on lines of its own. -/
theorem content_appendSection : content (appendSection out text) = content out ++ content text := by
  unfold appendSection
  split
  · rename_i last
    obtain ⟨front, rfl⟩ := List.getLast?_eq_some_iff.mp last
    have ended : content (front ++ ['\n']) = content front := by
      rw [content_newline]
      exact List.append_nil _
    rw [List.append_assoc, List.singleton_append, content_newline, ended]
  · rw [List.append_assoc, List.singleton_append, content_newline]

/-- The content of the offer is that of its sections. -/
theorem content_foldl (clean : '\r' ∉ out) (tidy : ∀ text ∈ texts, '\r' ∉ text) :
    content (texts.foldl appendSection out) = content out ++ (texts.map content).flatten ∧
      '\r' ∉ texts.foldl appendSection out := by
  induction texts generalizing out with
  | nil => exact ⟨(List.append_nil _).symm, clean⟩
  | cons text texts ih =>
      obtain ⟨now, tidy⟩ := List.forall_mem_cons.mp tidy
      have next : '\r' ∉ appendSection out text := by
        unfold appendSection
        intro member
        rcases List.mem_append.mp member with before | own
        · split at before
          · exact clean before
          · rcases List.mem_append.mp before with before | newline
            · exact clean before
            · cases List.mem_singleton.mp newline
        · exact now own
      obtain ⟨contents, last⟩ := ih next tidy
      refine ⟨?_, last⟩
      rw [List.foldl_cons, contents, content_appendSection, List.append_assoc]
      rfl

/-- Setting the bundle group adds no line end. -/
theorem plain_setBundle {line : Chars} (fixed : ∀ mid ∈ mids, Plain mid) (plain : Plain line) :
    Plain (setBundle mids line) := by
  unfold setBundle
  split
  · exact plain
  · constructor
    · intro member
      rcases List.mem_append.mp member with own | listed
      · exact absurd own (by decide)
      · rcases mem_intercalate listed with space | ⟨mid, listed, own⟩
        · cases List.mem_singleton.mp space
        · exact (fixed mid listed).1 own
    · intro member
      rcases List.mem_append.mp member with own | listed
      · exact absurd own (by decide)
      · rcases mem_intercalate listed with space | ⟨mid, listed, own⟩
        · cases List.mem_singleton.mp space
        · exact (fixed mid listed).2 own

/-- The session part is rewritten to its lines with the new group. -/
theorem content_rewriteBundleGroup (plain : ∀ line ∈ session, Plain line)
    (same : midMap.map Prod.snd = mids) (nonempty : mids ≠ []) (fixed : ∀ mid ∈ mids, Plain mid) :
    content (rewriteBundleGroup (joinLines session) midMap) =
        (session.map (setBundle mids)).filter nonblank ∧
      '\r' ∉ rewriteBundleGroup (joinLines session) midMap := by
  have whole : rewriteBundleGroup (joinLines session) midMap =
      joinLines ((lines (joinLines session)).map (setBundle mids)) := by
    simp only [rewriteBundleGroup, same, nonempty, if_false]
    rfl
  have rewritten (line : Chars)
      (member : line ∈ (lines (joinLines session)).map (setBundle mids)) : Plain line := by
    obtain ⟨old, listed, rfl⟩ := List.mem_map.mp member
    refine plain_setBundle fixed (plain old ?_)
    rcases lines_joinLines plain with same | same
    · exact same ▸ listed
    · rw [same]
      exact List.mem_append_left _ listed
  rw [whole]
  constructor
  · rw [content_joinLines fun line member => (rewritten line member).1]
    rcases lines_joinLines plain with same | same
    · rw [same]
    · have blank : ((lines (joinLines session) ++ [[]]).map (setBundle mids)).filter nonblank =
          ((lines (joinLines session)).map (setBundle mids)).filter nonblank := by
        rw [List.map_append, List.filter_append]
        exact List.append_nil _
      rw [← same] at blank
      exact blank.symm
  · exact plain_joinLines rewritten

end Assembling

/-! ## What the SFU reads -/

section Reading

variable {session all mids medias : List Chars} {sections : List (Chars × List Chars)}
  {line mid : Chars} {slots : Slots} {videos : ℕ}

/-- A line that spells no mid is not matched. -/
theorem matchMid_of_not_spells (other : ¬ SpellsMid line) : matchMid line = none :=
  if_neg fun both => other both.1

/-- The mid of a line is matched. -/
theorem matchMid_mid (nonempty : mid ≠ []) (plain : Plain mid) :
    matchMid (midPrefix ++ mid) = some mid :=
  if_pos ⟨by rfl, nonempty, plain.2, plain.1⟩

/-- Only the mids of an offer matter. -/
theorem foldl_scan : all.foldl Slots.scan slots =
    (all.filterMap matchMid).foldl Slots.note slots := by
  induction all generalizing slots with
  | nil => rfl
  | cons line all ih =>
      rw [List.foldl_cons, ih, Slots.scan, List.filterMap_cons]
      cases matchMid line <;> rfl

/-- Blank lines spell no mid. -/
theorem filterMap_nonblank : (all.filter nonblank).filterMap matchMid = all.filterMap matchMid := by
  induction all with
  | nil => rfl
  | cons line all ih =>
      by_cases blank : line = []
      · subst line
        rw [List.filter_cons_of_neg nonblank_nil, ih]
        rfl
      · rw [List.filter_cons_of_pos (nonblank_eq_true blank), List.filterMap_cons,
          List.filterMap_cons, ih]

/-- The first line of a section spells no mid. -/
theorem not_spells_of_media (media : mediaPrefix <+: line) : ¬ SpellsMid line := by
  obtain ⟨rest, rfl⟩ := media
  intro spells
  exact absurd (List.cons.inj spells).1 (by decide)

/-- Nor does a bundle group, set or not. -/
theorem not_spells_setBundle (outside : ¬ SpellsMid line) : ¬ SpellsMid (setBundle mids line) := by
  unfold setBundle
  split
  · exact outside
  · intro spells
    exact absurd (List.cons.inj (List.cons.inj (List.cons.inj spells).2).2).1 (by decide)

/-- A section has the mid that was placed in it. -/
theorem filterMap_setMid (nonempty : mid ≠ []) (plain : Plain mid)
    (spelled : ∀ line ∈ all, SpellsMid line → isMid line) :
    (all.map (setMid mid)).filterMap matchMid =
      (all.filter isMid).map fun _ => mid := by
  induction all with
  | nil => rfl
  | cons line all ih =>
      obtain ⟨here, spelled⟩ := List.forall_mem_cons.mp spelled
      rw [List.map_cons, setMid]
      by_cases own : isMid line
      · rw [if_pos own, List.filterMap_cons, matchMid_mid nonempty plain, ih spelled,
          List.filter_cons_of_pos own]
        rfl
      · rw [if_neg own, List.filterMap_cons, matchMid_of_not_spells (mt here own), ih spelled,
          List.filter_cons_of_neg own]

/-- Each mid line has the new mid. -/
theorem filter_setMid : (all.map (setMid mid)).filter isMid =
    (all.filter isMid).map fun _ => midPrefix ++ mid := by
  induction all with
  | nil => rfl
  | cons line all ih =>
      rw [List.map_cons, setMid]
      by_cases own : isMid line
      · have placed : isMid (midPrefix ++ mid) := decide_eq_true (List.prefix_append _ _)
        rw [if_pos own, List.filter_cons_of_pos placed,
          List.filter_cons_of_pos own, ih, List.map_cons]
      · rw [if_neg own, List.filter_cons_of_neg own,
          List.filter_cons_of_neg own, ih]

/-- Placing mids keeps the sections apart. -/
theorem divided_placed (divided : Divided session sections) :
    Divided (session.map (setBundle mids)) (sections.zipWith placeMid medias) := by
  have placed (part : Chars × List Chars) (member : part ∈ sections.zipWith placeMid medias) :
      ∃ old ∈ sections, ∃ mid, part = placeMid old mid := by
    obtain ⟨place, inside, same⟩ := List.mem_iff_getElem.mp member
    rw [List.getElem_zipWith] at same
    exact ⟨_, List.getElem_mem _, _, same.symm⟩
  refine ⟨fun line member => ?_, fun part member => ?_, fun part member line inside => ?_⟩
  · obtain ⟨old, listed, rfl⟩ := List.mem_map.mp member
    unfold setBundle
    split
    · exact divided.session old listed
    · exact fun starts => absurd (List.cons_prefix_cons.mp starts).1 (by decide)
  · obtain ⟨old, listed, mid, rfl⟩ := placed part member
    exact divided.media old listed
  · obtain ⟨old, listed, mid, rfl⟩ := placed part member
    obtain ⟨before, own, rfl⟩ := List.mem_map.mp inside
    unfold setMid
    split
    · exact fun starts => absurd (List.cons_prefix_cons.mp starts).1 (by decide)
    · exact divided.bodies old listed before own

/-- No fixed mid is empty. -/
theorem nonempty_fixedMids : ∀ mid ∈ fixedMids videos medias, mid ≠ [] := by
  induction medias generalizing videos with
  | nil => exact nofun
  | cons media medias ih =>
      unfold fixedMids
      split
      · exact List.forall_mem_cons.mpr ⟨by decide, ih⟩
      · refine List.forall_mem_cons.mpr ⟨?_, ih⟩
        split <;> decide

/-- Each section gets a mid. -/
theorem length_fixedMids : (fixedMids videos medias).length = medias.length := by
  induction medias generalizing videos with
  | nil => rfl
  | cons media medias ih =>
      unfold fixedMids
      split <;> exact congrArg (· + 1) ih

/-- What the SFU has seen after it has read the slots of some sections. -/
theorem foldl_note :
    ((fixedMids videos medias).foldl Slots.note slots).videoCount =
        slots.videoCount + medias.countP (¬ IsAudio ·) ∧
      ((slots.hasAudioSlot = true ∨ ∃ media ∈ medias, IsAudio media) →
        ((fixedMids videos medias).foldl Slots.note slots).hasAudioSlot = true) ∧
      ((slots.hasCameraSlot = true ∨ videos = 0 ∧ ∃ media ∈ medias, ¬ IsAudio media) →
        ((fixedMids videos medias).foldl Slots.note slots).hasCameraSlot = true) := by
  induction medias generalizing videos slots with
  | nil =>
      refine ⟨rfl, ?_, ?_⟩
      · rintro (seen | ⟨_, impossible, -⟩)
        · exact seen
        · cases impossible
      · rintro (seen | ⟨-, _, impossible, -⟩)
        · exact seen
        · cases impossible
  | cons media medias ih =>
      by_cases audio : IsAudio media
      · have noted : slots.note "audio_main".toList = { slots with hasAudioSlot := true } := rfl
        obtain ⟨count, heard, camera⟩ :=
          @ih { slots with hasAudioSlot := true } videos
        rw [fixedMids, if_pos audio, List.foldl_cons, noted,
          List.countP_cons_of_neg (by simpa using audio)]
        refine ⟨count, fun _ => heard (.inl rfl), fun seen => camera ?_⟩
        rcases seen with seen | ⟨first, other, member, video⟩
        · exact .inl seen
        · rcases List.mem_cons.mp member with rfl | later
          · exact absurd audio video
          · exact .inr ⟨first, other, later, video⟩
      · have counted : medias.countP (¬ IsAudio ·) + 1 =
            (media :: medias).countP (¬ IsAudio ·) :=
          (List.countP_cons_of_pos (by simpa using audio)).symm
        have later (slots' : Slots) (more : slots'.videoCount = slots.videoCount + 1)
            (same : slots'.hasAudioSlot = slots.hasAudioSlot)
            (seen : videos = 0 ∨ slots.hasCameraSlot = true → slots'.hasCameraSlot = true) :
            ((fixedMids (videos + 1) medias).foldl Slots.note slots').videoCount =
                slots.videoCount + (media :: medias).countP (¬ IsAudio ·) ∧
              ((slots.hasAudioSlot = true ∨ ∃ other ∈ media :: medias, IsAudio other) →
                ((fixedMids (videos + 1) medias).foldl Slots.note slots').hasAudioSlot = true) ∧
              ((slots.hasCameraSlot = true ∨
                  videos = 0 ∧ ∃ other ∈ media :: medias, ¬ IsAudio other) →
                ((fixedMids (videos + 1) medias).foldl Slots.note slots').hasCameraSlot =
                  true) := by
          obtain ⟨count, heard, camera⟩ := @ih slots' (videos + 1)
          refine ⟨by omega, fun known => heard ?_, fun known => camera (.inl (seen ?_))⟩
          · rcases known with known | ⟨other, member, voice⟩
            · exact .inl (same.trans known)
            · rcases List.mem_cons.mp member with rfl | member
              · exact absurd voice audio
              · exact .inr ⟨other, member, voice⟩
          · rcases known with known | ⟨first, -⟩
            · exact .inr known
            · exact .inl first
        rw [fixedMids, if_neg audio, List.foldl_cons]
        by_cases first : videos = 0
        · rw [if_pos first]
          exact later _ rfl rfl fun _ => rfl
        · rw [if_neg first]
          exact later _ rfl rfl fun seen => seen.resolve_left first

/-- What is read of sections into which mids have been placed. -/
theorem placed_spec (one : ∀ part ∈ sections, (part.2.filter isMid).length = 1)
    (media : ∀ part ∈ sections, mediaPrefix <+: part.1)
    (spelled : ∀ line ∈ sectionLines sections, SpellsMid line → isMid line)
    (same : mids.length = sections.length) (nonempty : ∀ mid ∈ mids, mid ≠ [])
    (fixed : ∀ mid ∈ mids, Plain mid) :
    (sections.zipWith placeMid mids).map (fun part => (part.1, part.2.filter isMid)) =
        (sections.map Prod.fst).zip (mids.map fun mid => [midPrefix ++ mid]) ∧
      (sectionLines (sections.zipWith placeMid mids)).filterMap matchMid = mids := by
  induction sections generalizing mids with
  | nil =>
      cases List.eq_nil_of_length_eq_zero same
      exact ⟨rfl, rfl⟩
  | cons part sections ih =>
      cases mids with
      | nil => cases same
      | cons mid mids =>
          obtain ⟨here, one⟩ := List.forall_mem_cons.mp one
          obtain ⟨opens, media⟩ := List.forall_mem_cons.mp media
          obtain ⟨some, nonempty⟩ := List.forall_mem_cons.mp nonempty
          obtain ⟨plain, fixed⟩ := List.forall_mem_cons.mp fixed
          have own (line : Chars) (member : line ∈ part.2) : SpellsMid line → isMid line :=
            spelled line (List.mem_append_left _ (List.mem_cons_of_mem _ member))
          have later (line : Chars) (member : line ∈ sectionLines sections) :
              SpellsMid line → isMid line := spelled line (List.mem_append_right _ member)
          obtain ⟨read, found⟩ := ih one media later (Nat.succ.inj same) nonempty fixed
          obtain ⟨line, only⟩ := List.length_eq_one_iff.mp here
          constructor
          · rw [List.zipWith_cons_cons, List.map_cons, List.map_cons, List.map_cons,
              List.zip_cons_cons, read, placeMid, filter_setMid, only]
            rfl
          · have cut : sectionLines ((part :: sections).zipWith placeMid (mid :: mids)) =
                (part.1 :: part.2.map (setMid mid)) ++
                  sectionLines (sections.zipWith placeMid mids) := rfl
            rw [cut, List.filterMap_append, List.filterMap_cons,
              matchMid_of_not_spells (not_spells_of_media opens), filterMap_setMid some plain own,
              only, found]
            rfl

end Reading

/-! ## The offer -/

section

variable {all : List Chars}

/-- A regular offer has a section. -/
theorem Regular.sections_nonempty (regular : Regular all) : (parts all).2 ≠ [] := by
  intro none
  have audio := regular.audio
  rw [none] at audio
  cases audio

/-- Blank lines aside, these are the lines of the rewritten offer. -/
theorem content_rewriteOffer (regular : Regular all) :
    ((rawLines (rewriteOfferMidsForSfu (unlines ['\r', '\n'] all))).map trimReturn).filter
    nonblank =
      ((parts all).1.map (setBundle (fixedMids 0 ((parts all).2.map Prod.fst))) ++
        sectionLines ((parts all).2.zipWith placeMid
          (fixedMids 0 ((parts all).2.map Prod.fst)))).filter nonblank := by
  obtain ⟨divided, whole⟩ := parts_divided all
  have plain (line : Chars) (member : line ∈ (parts all).1) : Plain line :=
    regular.plain line (whole ▸ List.mem_append_left _ member)
  have plain' (line : Chars) (member : line ∈ sectionLines (parts all).2) : Plain line :=
    regular.plain line (whole ▸ List.mem_append_right _ member)
  obtain ⟨rest, sectioned, texts⟩ :=
    split_sections regular.sections_nonempty plain' divided.media divided.bodies
  have cut : split ('\n' :: mediaPrefix) (unlines ['\n'] all) =
      joinLines (parts all).1 :: split ('\n' :: mediaPrefix) rest := by
    obtain ⟨first, body, session⟩ := List.exists_cons_of_ne_nil regular.session
    have halves : unlines ['\n'] all = unlines ['\n'] (parts all).1 ++ (mediaPrefix ++ rest) := by
      rw [← sectioned]
      exact (congrArg (unlines ['\n']) whole).symm.trans List.flatMap_append
    rw [halves, session, unlines_append (List.cons_ne_nil _ _)]
    rw [session] at plain divided
    exact split_followed plain (List.forall_mem_cons.mp divided.session).2
  obtain ⟨mids, contents, clean⟩ := rewriteSections_spec texts divided.media regular.kinds
    regular.mids plain' 0 []
  rw [List.map_nil, List.nil_append] at mids
  have nonempty : fixedMids 0 ((parts all).2.map Prod.fst) ≠ [] := by
    intro none
    have length := congrArg List.length none
    rw [length_fixedMids, List.length_map] at length
    exact regular.sections_nonempty (List.eq_nil_of_length_eq_zero length)
  obtain ⟨session, tidy⟩ := content_rewriteBundleGroup plain mids nonempty (plain_fixedMids rfl)
  obtain ⟨assembled, last⟩ := content_foldl tidy clean
  rw [rewriteOfferMidsForSfu, replace_crlf regular.plain, cut]
  rw [contents, session, ← List.filter_append] at assembled
  exact (content_crlf last).trans assembled

/-- Mids of one audio section and one or two others will do. -/
theorem check_fixedMids (regular : Regular all) :
    ((fixedMids 0 ((parts all).2.map Prod.fst)).foldl Slots.note {}).check = .ok () := by
  obtain ⟨count, heard, camera⟩ := @foldl_note ((parts all).2.map Prod.fst) {} 0
  obtain ⟨voice, listed, audio⟩ :=
    List.countP_pos_iff.mp (show 0 < (parts all).2.countP
      (IsAudio ·.1) by rw [regular.audio]; decide)
  have shown : 0 < (parts all).2.countP (IsVideo ·.1) := by
    rcases regular.video with one | two <;> omega
  obtain ⟨picture, listed', video⟩ := List.countP_pos_iff.mp shown
  have apart {media : Chars} (video : IsVideo media) : ¬ IsAudio media := by
    rintro ⟨rest, rfl⟩
    obtain ⟨more, same⟩ := video
    exact absurd (List.cons.inj (List.cons.inj (List.cons.inj same).2).2).1 (by decide)
  have counted : ((parts all).2.map Prod.fst).countP (¬ IsAudio ·) =
      (parts all).2.countP (IsVideo ·.1) := by
    rw [List.countP_map]
    refine List.countP_congr fun part member => ?_
    simp only [Function.comp_apply, decide_eq_true_eq]
    exact ⟨(regular.kinds part member).resolve_left, apart⟩
  have hasAudio := heard (.inr ⟨voice.1, List.mem_map_of_mem listed, of_decide_eq_true audio⟩)
  have hasCamera := camera
    (.inr ⟨rfl, picture.1, List.mem_map_of_mem listed', apart (of_decide_eq_true video)⟩)
  have few : ¬ ((fixedMids 0 ((parts all).2.map Prod.fst)).foldl Slots.note {}).videoCount > 2 := by
    have start : ({} : Slots).videoCount = 0 := rfl
    rw [count, counted, start]
    rcases regular.video with one | two <;> omega
  simp only [Slots.check, hasAudio, hasCamera, few, Bool.not_true, Bool.false_and,
    Bool.false_eq_true, if_false]

/-- Lines that differ from those of the placed sections in blank lines only. -/
theorem takesSlots_of_content (regular : Regular all) {read : List Chars}
    (content : read.filter nonblank =
      ((parts all).1.map (setBundle (fixedMids 0 ((parts all).2.map Prod.fst))) ++
        sectionLines ((parts all).2.zipWith placeMid
          (fixedMids 0 ((parts all).2.map Prod.fst)))).filter nonblank) :
    (read.foldl Slots.scan {}).check = .ok () ∧
      (parts read).2.map (fun part => (part.1, part.2.filter isMid)) =
        ((parts all).2.map Prod.fst).zip
          ((fixedMids 0 ((parts all).2.map Prod.fst)).map fun mid => [midPrefix ++ mid]) ∧
      ∀ line ∈ (parts read).1, bundlePrefix <+: line →
        line = "a=group:BUNDLE ".toList ++
          [' '].intercalate (fixedMids 0 ((parts all).2.map Prod.fst)) := by
  obtain ⟨divided, whole⟩ := parts_divided all
  have spelled (line : Chars) (member : line ∈ sectionLines (parts all).2) :
      SpellsMid line → isMid line :=
    regular.spelled line (whole ▸ List.mem_append_right _ member)
  obtain ⟨placed, found⟩ := placed_spec regular.mids divided.media spelled
    (length_fixedMids.trans (List.length_map _)) nonempty_fixedMids (plain_fixedMids rfl)
  have outside (line : Chars) (member : line ∈ (parts all).1) : ¬ SpellsMid line := fun spells =>
    regular.outside line member
      (regular.spelled line (whole ▸ List.mem_append_left _ member) spells)
  generalize mids_eq : fixedMids 0 ((parts all).2.map Prod.fst) = mids at content placed found ⊢
  have silent : ((parts all).1.map (setBundle mids)).filterMap matchMid = [] := by
    rw [List.filterMap_eq_nil_iff]
    intro line member
    obtain ⟨old, listed, rfl⟩ := List.mem_map.mp member
    exact matchMid_of_not_spells (not_spells_setBundle (outside old listed))
  have same : parts (read.filter nonblank) = _ := congrArg parts content
  rw [parts_filter, parts_filter, parts_of_divided (divided_placed divided)] at same
  obtain ⟨sessions, sections⟩ := Prod.mk.inj same
  refine ⟨?_, ?_, fun line member starts => ?_⟩
  · rw [foldl_scan, ← filterMap_nonblank, content, filterMap_nonblank, List.filterMap_append,
      silent, found, List.nil_append, ← mids_eq]
    exact check_fixedMids regular
  · have kept (lines : List Chars) : (lines.filter nonblank).filter isMid = lines.filter isMid := by
      rw [List.filter_filter]
      refine List.filter_congr fun line _ => ?_
      cases line with
      | nil => rfl
      | cons char line => rw [nonblank_eq_true (List.cons_ne_nil char line), Bool.and_true]
    have filtered := congrArg (List.map fun part => (part.1, part.2.filter isMid)) sections
    simp only [List.map_map, Function.comp_def, kept] at filtered
    exact filtered.trans placed
  · have some : nonblank line = true := by
      refine nonblank_eq_true ?_
      rintro rfl
      exact absurd starts (by decide)
    have listed : line ∈ (parts read).1.filter nonblank := List.mem_filter.mpr ⟨member, some⟩
    rw [sessions] at listed
    obtain ⟨old, -, rfl⟩ := List.mem_map.mp (List.mem_filter.mp listed).1
    unfold setBundle at starts ⊢
    split
    · rename_i other
      rw [if_pos other] at starts
      exact absurd starts other
    · rfl

/-- **The rewritten offer takes the fixed slots of the SFU.** -/
theorem takesSlots_rewriteOffer (regular : Regular all) :
    TakesSlots all (rewriteOfferMidsForSfu (unlines ['\r', '\n'] all)) := by
  obtain ⟨accepted, mids, bundle⟩ := takesSlots_of_content regular (content_rewriteOffer regular)
  exact ⟨accepted, mids, bundle⟩

/-- An offer whose video section comes before its audio section. -/
def videoFirst : List Chars :=
  ["v=0", "a=group:BUNDLE 0 1", "m=video 9", "a=mid:0", "m=audio 9", "a=mid:1"].map String.toList

/-- An offer with its camera in front takes the slots. -/
theorem takesSlots_videoFirst : TakesSlots videoFirst
    (rewriteOfferMidsForSfu (unlines ['\r', '\n'] videoFirst)) :=
  takesSlots_rewriteOffer {
    plain := by decide +kernel
    session := by decide +kernel
    audio := by decide +kernel
    video := by decide +kernel
    kinds := by decide +kernel
    mids := by decide +kernel
    outside := by decide +kernel
    spelled := by decide +kernel }

end

end Callifornia.OfferPolicy
