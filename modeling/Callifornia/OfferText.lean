import Callifornia.OfferPolicy
import Mathlib.Data.List.Forall2

/-! # What is kept of an offer

The client takes the text of an offer apart and puts it together again. Line by line, only
mids and bundle groups change, and a second rewriting changes nothing more. The end of the
last line is lost with the section it is in, when that is an audio or a video section.
-/

namespace Callifornia.OfferText

open Text Client OfferPolicy

/-! ## The lines of an offer and where they are -/

inductive Place
  | session
  | audioVideo
  | other
  deriving DecidableEq

def placeOf (media : Chars) : Place :=
  if IsAudio media ∨ IsVideo media then .audioVideo else .other

/-- The lines of an offer, each with the part it is in. A section starts at the `m=` that
follows a newline, so the first line, the `v=` line of an offer, is in the session part. -/
def spots : List Chars → List (Place × Chars)
  | [] => []
  | first :: body =>
      (first :: (parts body).1).map (Place.session, ·) ++
        (parts body).2.flatMap fun part => (part.1 :: part.2).map (placeOf part.1, ·)

/-- The lines that a rewriting may change. -/
def MayChange : Place × Chars → Prop
  | (.session, line) => bundlePrefix <+: line
  | (.audioVideo, line) => isMid line
  | (.other, _) => False

/-- The line is what has become of the one there. -/
abbrev Kept (spot : Place × Chars) (line : Chars) : Prop := line = spot.2 ∨ MayChange spot

/-- **Only mids and bundle groups change.** The output has a line for each line, ended the
same way, and it is the line itself unless that may change. -/
def Framed (all : List Chars) (output : Chars) : Prop :=
  ∃ out, output = unlines ['\r', '\n'] out ∧ (∀ line ∈ out, Plain line) ∧
    List.Forall₂ Kept (spots all) out

/-! ## What becomes of the lines -/

/-- The mid of a section after so many video sections, and the video sections with it. -/
def slotOf (videos : ℕ) (media : Chars) : Option Chars × ℕ :=
  if IsAudio media then (some "audio_main".toList, videos)
  else if IsVideo media then
    (some (if videos = 0 then "video_camera".toList else "video_screen".toList), videos + 1)
  else (none, videos)

def editSection (slot : Option Chars) (part : Chars × List Chars) : Chars × List Chars :=
  match slot with
  | none => part
  | some mid => placeMid part mid

def editSections : ℕ → List (Chars × List Chars) → List (Chars × List Chars)
  | _, [] => []
  | videos, part :: sections =>
      editSection (slotOf videos part.1).1 part :: editSections (slotOf videos part.1).2 sections

/-- The mids that are placed, one for each line that has had one. -/
def midsOf : ℕ → List (Chars × List Chars) → List Chars
  | _, [] => []
  | videos, part :: sections =>
      ((slotOf videos part.1).1.elim [] fun mid => (part.2.filter isMid).map fun _ => mid) ++
        midsOf (slotOf videos part.1).2 sections

def editBundle (mids : List Chars) (line : Chars) : Chars :=
  if mids = [] then line else setBundle mids line

/-- The lines of the rewritten offer. -/
def edited : List Chars → List Chars
  | [] => []
  | first :: body =>
      (first :: (parts body).1).map (editBundle (midsOf 0 (parts body).2)) ++
        sectionLines (editSections 0 (parts body).2)

/-- The last section is copied as it is. -/
def lastCopied (sections : List (Chars × List Chars)) : Bool :=
  sections.getLast?.any fun part => placeOf part.1 = .other

/-- The end of the last line is kept. -/
def keepsEnd (all : List Chars) : Bool := lastCopied (parts all.tail).2

section Edited

variable {videos : ℕ} {part : Chars × List Chars} {sections : List (Chars × List Chars)}
  {mids : List Chars} {line media : Chars}

/-- A section of another kind gets no mid. -/
theorem slot_of_other (other : placeOf media = .other) : slotOf videos media = (none, videos) := by
  unfold placeOf at other
  split at other
  · cases other
  · rename_i neither
    obtain ⟨audio, video⟩ := not_or.mp neither
    rw [slotOf, if_neg audio, if_neg video]

/-- An audio or a video section gets a mid. -/
theorem slot_of_audioVideo (known : placeOf media ≠ .other) :
    ∃ mid, (slotOf videos media).1 = some mid ∧ Plain mid ∧ placeOf media = .audioVideo := by
  unfold placeOf at known ⊢
  split at known
  · rename_i kind
    rw [if_pos kind, slotOf]
    by_cases audio : IsAudio media
    · rw [if_pos audio]
      exact ⟨_, rfl, by decide, rfl⟩
    · rw [if_neg audio, if_pos (kind.resolve_left audio)]
      exact ⟨_, rfl, by split <;> decide, rfl⟩
  · exact absurd rfl known

/-- A section keeps its `m=` line. -/
theorem editSection_fst (slot : Option Chars) : (editSection slot part).1 = part.1 := by
  cases slot <;> rfl

/-- The mid that is set last counts. -/
theorem setMid_setMid (mid : Chars) : setMid mid (setMid mid line) = setMid mid line := by
  unfold setMid
  by_cases own : isMid line
  · have again : isMid (midPrefix ++ mid) := decide_eq_true (List.prefix_append _ _)
    rw [if_pos own, if_pos again]
  · rw [if_neg own, if_neg own]

/-- A mid line stays a mid line, and no other becomes one. -/
theorem isMid_setMid (mid : Chars) : isMid (setMid mid line) = isMid line := by
  unfold setMid
  split
  · rename_i own
    rw [own]
    exact decide_eq_true (List.prefix_append _ _)
  · rfl

/-- A section is edited once. -/
theorem editSection_editSection (slot : Option Chars) :
    editSection slot (editSection slot part) = editSection slot part := by
  cases slot with
  | none => rfl
  | some mid =>
      refine Prod.ext rfl ?_
      exact (List.map_map ..).trans (List.map_congr_left fun line _ => setMid_setMid mid)

/-- Editing all sections again changes nothing more. -/
theorem editSections_editSections :
    editSections videos (editSections videos sections) = editSections videos sections := by
  induction sections generalizing videos with
  | nil => rfl
  | cons part sections ih =>
      rw [editSections, editSections, editSection_fst, editSection_editSection, ih]

/-- The edited sections have as many mid lines as before. -/
theorem midsOf_editSections : midsOf videos (editSections videos sections) =
    midsOf videos sections := by
  induction sections generalizing videos with
  | nil => rfl
  | cons part sections ih =>
      rw [editSections, midsOf, midsOf, editSection_fst, ih]
      cases (slotOf videos part.1).1 with
      | none => rfl
      | some mid =>
          have same : ((editSection (some mid) part).2.filter isMid).length =
              (part.2.filter isMid).length := by
            rw [editSection, placeMid, List.filter_map, List.length_map]
            exact congrArg List.length (List.filter_congr fun line _ => isMid_setMid mid)
          have counted (lines : List Chars) :
              (lines.map fun _ => mid) = List.replicate lines.length mid :=
            List.map_const' ..
          rw [Option.elim_some, Option.elim_some, counted, counted, same]

/-- The bundle group is set once. -/
theorem editBundle_editBundle :
    editBundle mids (editBundle mids line) = editBundle mids line := by
  unfold editBundle setBundle
  by_cases none : mids = []
  · rw [if_pos none, if_pos none]
  · rw [if_neg none, if_neg none]
    by_cases own : bundlePrefix <+: line
    · have again : bundlePrefix <+: "a=group:BUNDLE ".toList ++ [' '].intercalate mids :=
        List.IsPrefix.trans (by decide) (List.prefix_append _ _)
      rw [if_neg (not_not_intro own), if_neg (not_not_intro again)]
    · rw [if_pos own, if_pos own]

/-! ### The parts of the rewritten offer -/

/-- A line of the session part starts no section, edited or not. -/
theorem not_media_editBundle (other : ¬ mediaPrefix <+: line) :
    ¬ mediaPrefix <+: editBundle mids line := by
  unfold editBundle setBundle
  split
  · exact other
  · split
    · exact other
    · exact fun starts => absurd (List.cons_prefix_cons.mp starts).1 (by decide)

/-- Nor does a line of a section. -/
theorem not_media_setMid {mid : Chars} (other : ¬ mediaPrefix <+: line) :
    ¬ mediaPrefix <+: setMid mid line := by
  unfold setMid
  split
  · exact fun starts => absurd (List.cons_prefix_cons.mp starts).1 (by decide)
  · exact other

/-- Every edited section was a section. -/
theorem mem_editSections (member : part ∈ editSections videos sections) :
    ∃ slot, ∃ old ∈ sections, part = editSection slot old := by
  induction sections generalizing videos with
  | nil => cases member
  | cons old sections ih =>
      rcases List.mem_cons.mp member with rfl | later
      · exact ⟨_, old, List.mem_cons_self, rfl⟩
      · obtain ⟨slot, older, listed, same⟩ := ih later
        exact ⟨slot, older, List.mem_cons_of_mem _ listed, same⟩

/-- The edited lines are divided as they were. -/
theorem divided_edited {session : List Chars} (divided : Divided session sections) :
    Divided (session.map (editBundle mids)) (editSections videos sections) := by
  constructor
  · intro line member
    obtain ⟨old, listed, rfl⟩ := List.mem_map.mp member
    exact not_media_editBundle (divided.session old listed)
  · intro part member
    obtain ⟨slot, old, listed, rfl⟩ := mem_editSections member
    rw [editSection_fst]
    exact divided.media old listed
  · intro part member line inside
    obtain ⟨slot, old, listed, rfl⟩ := mem_editSections member
    cases slot with
    | none => exact divided.bodies old listed line inside
    | some mid =>
        obtain ⟨older, own, rfl⟩ := List.mem_map.mp inside
        exact not_media_setMid (divided.bodies old listed older own)

/-- The parts of the edited lines are the edited parts. -/
theorem parts_edited {first : Chars} {body : List Chars} :
    parts (edited (first :: body)).tail =
      ((parts body).1.map (editBundle (midsOf 0 (parts body).2)),
        editSections 0 (parts body).2) :=
  parts_of_divided (divided_edited (parts_divided body).1)

/-- **Lines that have been rewritten stay as they are.** -/
theorem edited_edited {all : List Chars} : edited (edited all) = edited all := by
  cases all with
  | nil => rfl
  | cons first body =>
      have again : edited (edited (first :: body)) =
          (editBundle (midsOf 0 (parts body).2) first ::
            (parts (edited (first :: body)).tail).1).map
              (editBundle (midsOf 0 (parts (edited (first :: body)).tail).2)) ++
            sectionLines (editSections 0 (parts (edited (first :: body)).tail).2) := rfl
      have twice (lines : List Chars) :
          (lines.map (editBundle (midsOf 0 (parts body).2))).map
            (editBundle (midsOf 0 (parts body).2)) =
              lines.map (editBundle (midsOf 0 (parts body).2)) := by
        rw [List.map_map]
        exact List.map_congr_left fun line _ => editBundle_editBundle
      rw [again, parts_edited, midsOf_editSections, editSections_editSections]
      exact congrArg (· ++ _) (twice (first :: (parts body).1))

/-- The last section is of the same kind as before. -/
theorem lastCopied_editSections :
    lastCopied (editSections videos sections) = lastCopied sections := by
  have medias : (editSections videos sections).map Prod.fst = sections.map Prod.fst := by
    induction sections generalizing videos with
    | nil => rfl
    | cons part sections ih =>
        rw [editSections, List.map_cons, List.map_cons, editSection_fst, ih]
  have read (sections : List (Chars × List Chars)) : lastCopied sections =
      (sections.map Prod.fst).getLast?.any fun media => placeOf media = .other := by
    rw [List.getLast?_map, Option.any_map]
    rfl
  rw [read, read, medias]

/-- So the end of the last line is kept again, or lost again. -/
theorem keepsEnd_edited {all : List Chars} : keepsEnd (edited all) = keepsEnd all := by
  cases all with
  | nil => rfl
  | cons first body =>
      rw [keepsEnd, parts_edited]
      exact lastCopied_editSections

/-! ### The lines stay full -/

/-- A line with a mid is a full line. -/
theorem full_setMid {mid : Chars} (fixed : Plain mid) (full : Full line) :
    Full (setMid mid line) := by
  refine ⟨?_, plain_setMid fixed full.2⟩
  unfold setMid
  split
  · exact List.cons_ne_nil _ _
  · exact full.1

/-- A line with a bundle group is a full line. -/
theorem full_editBundle (fixed : ∀ mid ∈ mids, Plain mid) (full : Full line) :
    Full (editBundle mids line) := by
  unfold editBundle
  split
  · exact full
  · refine ⟨?_, plain_setBundle fixed full.2⟩
    unfold setBundle
    split
    · exact full.1
    · exact List.cons_ne_nil _ _

/-- The mids have no line ends. -/
theorem plain_midsOf : ∀ mid ∈ midsOf videos sections, Plain mid := by
  induction sections generalizing videos with
  | nil => exact nofun
  | cons part sections ih =>
      intro mid member
      rcases List.mem_append.mp member with own | later
      · by_cases other : placeOf part.1 = .other
        · rw [slot_of_other other] at own
          cases own
        · obtain ⟨fixed, slot, plain, -⟩ := @slot_of_audioVideo videos part.1 other
          rw [slot] at own
          obtain ⟨-, -, rfl⟩ := List.mem_map.mp own
          exact plain
      · exact ih mid later

/-- The edited sections consist of full lines. -/
theorem full_editSections (full : ∀ line ∈ sectionLines sections, Full line) :
    ∀ line ∈ sectionLines (editSections videos sections), Full line := by
  induction sections generalizing videos with
  | nil => exact nofun
  | cons part sections ih =>
      have own (line : Chars) (member : line ∈ part.1 :: part.2) : Full line :=
        full line (List.mem_append_left _ member)
      have later (line : Chars) (member : line ∈ sectionLines sections) : Full line :=
        full line (List.mem_append_right _ member)
      intro line member
      rcases List.mem_append.mp member with here | there
      · by_cases other : placeOf part.1 = .other
        · rw [slot_of_other other] at here
          exact own line here
        · obtain ⟨mid, slot, plain, -⟩ := @slot_of_audioVideo videos part.1 other
          rw [slot] at here
          rcases List.mem_cons.mp here with rfl | inside
          · exact own part.1 List.mem_cons_self
          · obtain ⟨old, listed, rfl⟩ := List.mem_map.mp inside
            exact full_setMid plain (own old (List.mem_cons_of_mem _ listed))
      · exact ih later line there

/-- Full lines are edited into full lines. -/
theorem full_edited {all : List Chars} (full : ∀ line ∈ all, Full line) :
    ∀ line ∈ edited all, Full line := by
  cases all with
  | nil => exact full
  | cons first body =>
      obtain ⟨-, whole⟩ := parts_divided body
      intro line member
      rcases List.mem_append.mp member with here | there
      · obtain ⟨old, listed, rfl⟩ := List.mem_map.mp here
        refine full_editBundle plain_midsOf (full old ?_)
        rcases List.mem_cons.mp listed with rfl | inside
        · exact List.mem_cons_self
        · exact List.mem_cons_of_mem _ (whole ▸ List.mem_append_left _ inside)
      · refine full_editSections (fun line inside => full line ?_) line there
        exact List.mem_cons_of_mem _ (whole ▸ List.mem_append_right _ inside)

end Edited

/-! ## What the lines become, where they are -/

section Spots

variable {videos : ℕ} {part : Chars × List Chars} {sections : List (Chars × List Chars)}
  {mids session : List Chars}

/-- The lines at their places are the lines. -/
theorem spots_map_snd (all : List Chars) : (spots all).map Prod.snd = all := by
  cases all with
  | nil => rfl
  | cons first body =>
      have lines (place : Place) (all : List Chars) : (all.map (place, ·)).map Prod.snd = all := by
        rw [List.map_map]
        exact List.map_id _
      have sections : ((parts body).2.flatMap fun part =>
          (part.1 :: part.2).map (placeOf part.1, ·)).map Prod.snd =
            sectionLines (parts body).2 := by
        rw [List.map_flatMap, sectionLines]
        exact congrArg (List.flatMap · _) (funext fun part => lines _ _)
      rw [spots, List.map_append, lines, sections]
      exact congrArg (first :: ·) (parts_divided body).2

/-- Lines of one part that are kept one by one. -/
theorem kept_map {place : Place} {edit : Chars → Chars}
    (kept : ∀ line, Kept (place, line) (edit line)) (lines : List Chars) :
    List.Forall₂ Kept (lines.map (place, ·)) (lines.map edit) := by
  rw [List.forall₂_map_left_iff, List.forall₂_map_right_iff, List.forall₂_same]
  exact fun line _ => kept line

/-- In the session part only bundle groups change. -/
theorem kept_session : List.Forall₂ Kept (session.map (Place.session, ·))
    (session.map (editBundle mids)) := by
  refine kept_map (fun line => ?_) session
  unfold editBundle setBundle
  split
  · exact .inl rfl
  · split
    · exact .inl rfl
    · rename_i own
      exact .inr (not_not.mp own)

/-- In a section only mids change. -/
theorem kept_section (media : mediaPrefix <+: part.1) :
    List.Forall₂ Kept ((part.1 :: part.2).map (placeOf part.1, ·))
      ((editSection (slotOf videos part.1).1 part).1 ::
        (editSection (slotOf videos part.1).1 part).2) := by
  by_cases other : placeOf part.1 = .other
  · rw [slot_of_other other]
    have same := @kept_map (placeOf part.1) id (fun line => .inl rfl) (part.1 :: part.2)
    rwa [List.map_id] at same
  · obtain ⟨mid, slot, -, place⟩ := @slot_of_audioVideo videos part.1 other
    rw [slot, place]
    have lines : (placeMid part mid).1 :: (placeMid part mid).2 =
        (part.1 :: part.2).map (setMid mid) :=
      congrArg (· :: _) (setMid_media media).symm
    refine lines ▸ kept_map (fun line => ?_) _
    unfold setMid
    split
    · rename_i own
      exact .inr own
    · exact .inl rfl

/-- What is edited is kept line by line. -/
theorem kept_edited (all : List Chars) : List.Forall₂ Kept (spots all) (edited all) := by
  cases all with
  | nil => exact .nil
  | cons first body =>
      refine List.rel_append kept_session ?_
      have media := (parts_divided body).1.media
      generalize (parts body).2 = sections at media
      suffices ∀ videos, List.Forall₂ Kept
          (sections.flatMap fun part => (part.1 :: part.2).map (placeOf part.1, ·))
          (sectionLines (editSections videos sections)) from this 0
      induction sections with
      | nil => exact fun _ => .nil
      | cons part sections ih =>
          obtain ⟨opens, media⟩ := List.forall_mem_cons.mp media
          exact fun videos => List.rel_append (kept_section opens) (ih media _)

/-- The end is kept exactly if the last line stands in no audio or video section. -/
theorem keepsEnd_iff {all : List Chars} (filled : all ≠ []) :
    keepsEnd all = true ↔ ∀ spot ∈ (spots all).getLast?, spot.1 = .other := by
  obtain ⟨first, body, rfl⟩ := List.exists_cons_of_ne_nil filled
  have lines (place : Place) (line : Chars) (rest : List Chars) :
      ∃ last, ((line :: rest).map (place, ·)).getLast? = some (place, last) := by
    rw [List.getLast?_map, List.getLast?_cons]
    exact ⟨_, rfl⟩
  rw [keepsEnd, lastCopied, List.tail_cons, spots]
  rcases List.eq_nil_or_concat' (parts body).2 with none | ⟨front, last, ends⟩
  · obtain ⟨line, own⟩ := lines .session first (parts body).1
    rw [none, List.flatMap_nil, List.append_nil, own]
    constructor
    · exact nofun
    · intro copied
      cases copied _ rfl
  · obtain ⟨line, own⟩ := lines (placeOf last.1) last.1 last.2
    rw [ends, List.flatMap_append, List.flatMap_singleton]
    simp only [List.getLast?_append, own, List.getLast?_singleton, Option.some_or]
    constructor
    · rintro copied spot same
      cases same
      exact of_decide_eq_true copied
    · intro copied
      exact decide_eq_true (copied _ rfl)

end Spots

/-! ## The text of the lines -/

section Texts

variable {videos : ℕ} {part : Chars × List Chars} {sections : List (Chars × List Chars)}
  {all more body session texts : List Chars} {first line text start : Chars} {newline : Bool}
  {midMap : MidMap}

/-! ### Taking the text apart -/

/-- The texts of some sections. -/
def sectionTexts (newline : Bool) : List (Chars × List Chars) → List Chars
  | [] => []
  | part :: sections =>
      ended (newline && sections.isEmpty) (part.1 :: part.2) :: sectionTexts newline sections

/-- **An offer is split into its session part and its sections.** -/
theorem split_offer (plain : ∀ line ∈ (first :: body) ++ sectionLines sections, Plain line)
    (divided : Divided body sections) :
    ∃ texts, split ('\n' :: mediaPrefix)
          (ended newline ((first :: body) ++ sectionLines sections)) =
        ended (newline && sections.isEmpty) (first :: body) :: texts ∧
      texts.map (mediaPrefix ++ ·) = sectionTexts newline sections := by
  obtain ⟨session, media, bodies⟩ := divided
  induction sections generalizing first body with
  | nil =>
      refine ⟨[], ?_, rfl⟩
      rw [sectionLines, List.flatMap_nil, List.append_nil, List.isEmpty_nil, Bool.and_true]
      exact split_ended (fun line member => plain line (List.mem_append_left _ member)) session
  | cons part sections ih =>
      obtain ⟨⟨tail, same⟩, media⟩ := List.forall_mem_cons.mp media
      obtain ⟨own, bodies⟩ := List.forall_mem_cons.mp bodies
      have later (line : Chars) (member : line ∈ (tail :: part.2) ++ sectionLines sections) :
          Plain line := by
        rcases List.mem_cons.mp member with rfl | inside
        · obtain ⟨lf, cr⟩ := plain part.1 (List.mem_append_right _ List.mem_cons_self)
          rw [← same] at lf cr
          exact ⟨fun inside => lf (List.mem_append_right _ inside),
            fun inside => cr (List.mem_append_right _ inside)⟩
        · exact plain line (List.mem_append_right _ (List.mem_cons_of_mem _ inside))
      obtain ⟨texts, pieces, read⟩ := ih later own media bodies
      have lines : sectionLines (part :: sections) =
          (mediaPrefix ++ tail) :: (part.2 ++ sectionLines sections) := by
        rw [same]
        rfl
      have whole : ended newline ((first :: body) ++ sectionLines (part :: sections)) =
          joinLines (first :: body) ++
            '\n' :: (mediaPrefix ++ ended newline ((tail :: part.2) ++ sectionLines sections)) := by
        rw [lines, ended_append (List.cons_ne_nil _ _) (List.cons_ne_nil _ _), List.cons_append,
          append_ended]
      have here (line : Chars) (member : line ∈ first :: body) : Plain line :=
        plain line (List.mem_append_left _ member)
      refine ⟨ended (newline && sections.isEmpty) (tail :: part.2) :: texts, ?_, ?_⟩
      · rw [whole, split_followed here session, List.isEmpty_cons, Bool.and_false, ended_false,
          pieces]
      · rw [List.map_cons, read, append_ended, same]
        rfl

/-! ### Putting it together -/

/-- What the client writes for a section, and the mids it notes. -/
theorem rewriteSectionMid_ended (full : ∀ line ∈ part.1 :: part.2, Full line)
    (media : mediaPrefix <+: part.1) (mid : Chars) :
    (rewriteSectionMid (ended newline (part.1 :: part.2)) mid midMap).1 =
        joinLines ((placeMid part mid).1 :: (placeMid part mid).2) ∧
      (rewriteSectionMid (ended newline (part.1 :: part.2)) mid midMap).2.map Prod.snd =
        midMap.map Prod.snd ++ (part.2.filter isMid).map fun _ => mid := by
  rw [rewriteSectionMid, lines_ended (List.cons_ne_nil _ _) full]
  constructor
  · exact congrArg (fun line => joinLines (line :: part.2.map (setMid mid))) (setMid_media media)
  · rw [List.map_append, List.map_map, List.filter_cons_of_neg (not_mid_of_media media)]
    rfl

/-- The last section is not the first of several. -/
theorem lastCopied_cons (next : sections ≠ []) :
    lastCopied (part :: sections) = lastCopied sections := by
  rw [lastCopied, List.getLast?_cons_of_ne_nil next]
  rfl

/-- There are as many sections as before. -/
theorem isEmpty_editSections : (editSections videos sections).isEmpty = sections.isEmpty := by
  cases sections <;> rfl

/-- A section is copied, or its mid is replaced by that of its slot. -/
def writeSection (slot : Option Chars) (text : Chars) (midMap : MidMap) : Chars × MidMap :=
  slot.elim (text, midMap) fun mid => rewriteSectionMid text mid midMap

/-- The sections are written one after the other. -/
theorem rewriteSections_cons (starts : ∀ start, '\n' ∉ start →
      (start <+: mediaPrefix ++ text ↔ start <+: part.1)) :
    rewriteSections (text :: texts) videos midMap =
      (let written := writeSection (slotOf videos part.1).1 (mediaPrefix ++ text) midMap
      let rest := rewriteSections texts (slotOf videos part.1).2 written.2
      (written.1 :: rest.1, rest.2)) := by
  have audio_iff : "m=audio".toList <+: mediaPrefix ++ text ↔ IsAudio part.1 :=
    starts _ (by decide)
  have video_iff : "m=video".toList <+: mediaPrefix ++ text ↔ IsVideo part.1 :=
    starts _ (by decide)
  have first : videos + 1 = 1 ↔ videos = 0 := by omega
  rw [rewriteSections, slotOf]
  by_cases audio : IsAudio part.1
  · rw [if_pos (audio_iff.mpr audio), if_pos audio]
    rfl
  · rw [if_neg (mt audio_iff.mp audio), if_neg audio]
    by_cases video : IsVideo part.1
    · rw [if_pos (video_iff.mpr video), if_pos video]
      simp only [first, writeSection, Option.elim_some]
    · rw [if_neg (mt video_iff.mp video), if_neg video]
      rfl

/-- A section keeps its end if sections follow, as a line of its own, or if it is copied. -/
theorem writeSection_ended (full : ∀ line ∈ part.1 :: part.2, Full line)
    (media : mediaPrefix <+: part.1) :
    (writeSection (slotOf videos part.1).1
        (ended (newline && sections.isEmpty) (part.1 :: part.2)) midMap).1 =
      ended (newline && lastCopied (part :: sections) && sections.isEmpty)
        ((editSection (slotOf videos part.1).1 part).1 ::
          (editSection (slotOf videos part.1).1 part).2) ∧
    (writeSection (slotOf videos part.1).1
        (ended (newline && sections.isEmpty) (part.1 :: part.2)) midMap).2.map Prod.snd =
      midMap.map Prod.snd ++
        (slotOf videos part.1).1.elim [] fun mid => (part.2.filter isMid).map fun _ => mid := by
  by_cases other : placeOf part.1 = .other
  · rw [slot_of_other other]
    refine ⟨?_, (List.append_nil _).symm⟩
    have kept : (newline && lastCopied (part :: sections) && sections.isEmpty) =
        (newline && sections.isEmpty) := by
      cases sections with
      | nil =>
          have copied : lastCopied [part] = true := decide_eq_true other
          rw [copied, Bool.and_true]
      | cons next sections => rw [List.isEmpty_cons, Bool.and_false, Bool.and_false]
    rw [kept]
    rfl
  · obtain ⟨mid, slot, -, -⟩ := @slot_of_audioVideo videos part.1 other
    have lost : (newline && lastCopied (part :: sections) && sections.isEmpty) = false := by
      cases sections with
      | nil =>
          have rebuilt : lastCopied [part] = false := decide_eq_false other
          rw [rebuilt, Bool.and_false, Bool.false_and]
      | cons next sections => rw [List.isEmpty_cons, Bool.and_false]
    rw [slot, lost, ended_false]
    exact rewriteSectionMid_ended full media mid

/-- **The sections are rewritten one by one.** The last one keeps its end if it is copied. -/
theorem rewriteSections_ended (full : ∀ line ∈ sectionLines sections, Full line)
    (media : ∀ part ∈ sections, mediaPrefix <+: part.1)
    (read : texts.map (mediaPrefix ++ ·) = sectionTexts newline sections) :
    (rewriteSections texts videos midMap).1 =
        sectionTexts (newline && lastCopied sections) (editSections videos sections) ∧
      (rewriteSections texts videos midMap).2.map Prod.snd =
        midMap.map Prod.snd ++ midsOf videos sections := by
  induction sections generalizing texts videos midMap with
  | nil =>
      cases List.map_eq_nil_iff.mp read
      exact ⟨rfl, (List.append_nil _).symm⟩
  | cons part sections ih =>
      obtain ⟨opens, media⟩ := List.forall_mem_cons.mp media
      have own (line : Chars) (member : line ∈ part.1 :: part.2) : Full line :=
        full line (List.mem_append_left _ member)
      have later (line : Chars) (member : line ∈ sectionLines sections) : Full line :=
        full line (List.mem_append_right _ member)
      cases texts with
      | nil => cases read
      | cons text texts =>
          have here : mediaPrefix ++ text =
              ended (newline && sections.isEmpty) (part.1 :: part.2) := (List.cons.inj read).1
          have there : texts.map (mediaPrefix ++ ·) = sectionTexts newline sections :=
            (List.cons.inj read).2
          have starts (start : Chars) (plain : '\n' ∉ start) :
              start <+: mediaPrefix ++ text ↔ start <+: part.1 := by
            rw [here]
            exact prefix_ended_iff plain
          -- whether the end is kept depends on the last section only
          have ends : sectionTexts (newline && lastCopied sections)
                (editSections (slotOf videos part.1).2 sections) =
              sectionTexts (newline && lastCopied (part :: sections))
                (editSections (slotOf videos part.1).2 sections) := by
            by_cases last : sections = []
            · subst sections
              rfl
            · rw [lastCopied_cons last]
          obtain ⟨written, mids⟩ :=
            @writeSection_ended videos part sections newline midMap own opens
          obtain ⟨rest, others⟩ := @ih (slotOf videos part.1).2 texts
            (writeSection (slotOf videos part.1).1 (mediaPrefix ++ text) midMap).2 later media there
          rw [rewriteSections_cons starts]
          dsimp only
          constructor
          · rw [rest, ends, here, written, editSections, sectionTexts, isEmpty_editSections]
          · rw [others, here, mids, midsOf, List.append_assoc]

/-- What the client writes for the session part. -/
theorem rewriteBundleGroup_ended (filled : session ≠ []) (full : ∀ line ∈ session, Full line) :
    rewriteBundleGroup (ended newline session) midMap =
      joinLines (session.map (editBundle (midMap.map Prod.snd))) := by
  rw [rewriteBundleGroup, lines_ended filled full]
  refine congrArg joinLines (List.map_congr_left fun line _ => ?_)
  unfold editBundle setBundle
  by_cases none : midMap.map Prod.snd = []
  · rw [if_pos none, if_pos none, ite_self]
  · rw [if_neg none, if_neg none]

/-- The sections are put together with a newline between them. -/
theorem foldl_appendSection (filled : session ≠ []) (full : ∀ line ∈ session, Full line)
    (fulls : ∀ line ∈ sectionLines sections, Full line) :
    (sectionTexts newline sections).foldl appendSection (joinLines session) =
      ended (newline && !sections.isEmpty) (session ++ sectionLines sections) := by
  induction sections generalizing session with
  | nil =>
      rw [List.isEmpty_nil, Bool.not_true, Bool.and_false, ended_false]
      exact congrArg joinLines (List.append_nil _).symm
  | cons part sections ih =>
      have own (line : Chars) (member : line ∈ part.1 :: part.2) : Full line :=
        fulls line (List.mem_append_left _ member)
      have later (line : Chars) (member : line ∈ sectionLines sections) : Full line :=
        fulls line (List.mem_append_right _ member)
      have both (line : Chars) (member : line ∈ session ++ part.1 :: part.2) : Full line :=
        (List.mem_append.mp member).elim (full line) (own line)
      have grown (shut : Bool) : appendSection (joinLines session)
          (ended shut (part.1 :: part.2)) = ended shut (session ++ part.1 :: part.2) := by
        rw [appendSection, if_neg (not_newline_joinLines filled full),
          ended_append filled (List.cons_ne_nil _ _), List.append_assoc, List.singleton_append]
      have whole : session ++ sectionLines (part :: sections) =
          (session ++ part.1 :: part.2) ++ sectionLines sections :=
        (List.append_assoc ..).symm
      rw [sectionTexts, List.foldl_cons, grown, whole, List.isEmpty_cons, Bool.not_false,
        Bool.and_true]
      cases sections with
      | nil =>
          rw [List.isEmpty_nil, Bool.and_true, sectionTexts, List.foldl_nil]
          exact congrArg (ended newline) (List.append_nil _).symm
      | cons next sections =>
          rw [List.isEmpty_cons, Bool.and_false, ended_false,
            ih (List.append_ne_nil_of_left_ne_nil filled _) both later, List.isEmpty_cons,
            Bool.not_false, Bool.and_true]

/-- **What the client makes of an offer**, whether its last line is ended or not. -/
theorem rewriteOffer_ended (filled : all ≠ []) (full : ∀ line ∈ all, Full line) :
    rewriteOfferMidsForSfu (replace ['\n'] ['\r', '\n'] (ended newline all)) =
      replace ['\n'] ['\r', '\n'] (ended (newline && keepsEnd all) (edited all)) := by
  obtain ⟨first, body, rfl⟩ := List.exists_cons_of_ne_nil filled
  obtain ⟨divided, whole⟩ := parts_divided body
  have plain (line : Chars) (member : line ∈ first :: body) : Plain line := (full line member).2
  have session (line : Chars) (member : line ∈ first :: (parts body).1) : Full line := by
    refine full line (List.mem_cons.mpr ((List.mem_cons.mp member).imp_right fun inside => ?_))
    exact whole ▸ List.mem_append_left _ inside
  have sections (line : Chars) (member : line ∈ sectionLines (parts body).2) : Full line :=
    full line (List.mem_cons_of_mem _ (whole ▸ List.mem_append_right _ member))
  have lines : first :: body = (first :: (parts body).1) ++ sectionLines (parts body).2 :=
    congrArg (first :: ·) whole.symm
  obtain ⟨texts, pieces, read⟩ :=
    @split_offer (parts body).2 (parts body).1 first newline (lines ▸ plain) divided
  rw [← lines] at pieces
  obtain ⟨written, mids⟩ :=
    @rewriteSections_ended 0 (parts body).2 texts newline [] sections divided.media read
  rw [List.map_nil, List.nil_append] at mids
  have kept : (newline && lastCopied (parts body).2 &&
      !(editSections 0 (parts body).2).isEmpty) = (newline && lastCopied (parts body).2) := by
    rw [isEmpty_editSections]
    cases (parts body).2 with
    | nil => exact (Bool.and_false _).trans (Bool.and_false newline).symm
    | cons part sections => exact Bool.and_true _
  rw [rewriteOfferMidsForSfu, replace_replace (not_return_ended plain), pieces]
  dsimp only
  rw [written, rewriteBundleGroup_ended (List.cons_ne_nil _ _) session, mids,
    foldl_appendSection (by simp) ?_ (full_editSections sections), kept]
  · rfl
  · intro line member
    obtain ⟨old, listed, rfl⟩ := List.mem_map.mp member
    exact full_editBundle plain_midsOf (session old listed)

end Texts

/-! ## The rewritten offer -/

section Rewritten

variable {all : List Chars}

/-- The rewritten text of lines that are all ended. -/
theorem rewriteOffer_lines (filled : all ≠ []) (full : ∀ line ∈ all, Full line) :
    rewriteOfferMidsForSfu (unlines ['\r', '\n'] all) =
      replace ['\n'] ['\r', '\n'] (ended (keepsEnd all) (edited all)) := by
  rw [← replace_unlines fun line member => (full line member).2, unlines_eq_ended filled,
    rewriteOffer_ended filled full, Bool.true_and]

/-- There are lines left. -/
theorem edited_ne_nil (filled : all ≠ []) : edited all ≠ [] := by
  obtain ⟨first, body, rfl⟩ := List.exists_cons_of_ne_nil filled
  exact List.cons_ne_nil _ _

/-- A framed output ends with a newline. -/
theorem Framed.getLast? {output : Chars} (framed : Framed all output) (filled : all ≠ []) :
    output.getLast? = some '\n' := by
  obtain ⟨out, rfl, -, kept⟩ := framed
  have length : all.length = out.length := by
    have same := congrArg List.length (spots_map_snd all)
    rw [List.length_map] at same
    exact same.symm.trans kept.length_eq
  have some : out ≠ [] := by
    rintro rfl
    exact filled (List.eq_nil_of_length_eq_zero length)
  obtain ⟨front, last, rfl⟩ := (List.eq_nil_or_concat' out).resolve_left some
  have cut : unlines ['\r', '\n'] (front ++ [last]) =
      (unlines ['\r', '\n'] front ++ last ++ ['\r']) ++ ['\n'] := by
    simp only [unlines, List.flatMap_append, List.flatMap_singleton, List.append_assoc,
      List.cons_append, List.nil_append]
  rw [cut, List.getLast?_concat]

/-- **The rewriting keeps the lines exactly if the last one is in a section that is copied.**
Else it has lost its end. -/
theorem framed_iff (full : ∀ line ∈ all, Full line) :
    Framed all (rewriteOfferMidsForSfu (unlines ['\r', '\n'] all)) ↔
      ∀ spot ∈ (spots all).getLast?, spot.1 = .other := by
  by_cases filled : all = []
  · subst all
    exact ⟨fun _ => nofun, fun _ => ⟨[], by decide, nofun, .nil⟩⟩
  · have full' := full_edited full
    rw [rewriteOffer_lines filled full, ← keepsEnd_iff filled]
    constructor
    · intro framed
      have last := framed.getLast? filled
      rw [getLast?_replace] at last
      cases kept : keepsEnd all with
      | true => rfl
      | false =>
          rw [kept, ended_false] at last
          exact absurd last (not_newline_joinLines (edited_ne_nil filled) full')
    · intro kept
      have plain (line : Chars) (member : line ∈ edited all) : Plain line := (full' line member).2
      rw [kept, ← unlines_eq_ended (edited_ne_nil filled), replace_unlines plain]
      exact ⟨edited all, rfl, plain, kept_edited all⟩

/-- An offer whose last section carries no audio and no video. -/
def dataLast : List Chars :=
  ["v=0", "a=group:BUNDLE 0 1", "m=audio 9", "a=mid:0", "m=application 9", "a=mid:1"].map
    String.toList

/-- An offer that ends with a data section keeps all line ends. -/
theorem framed_dataLast : Framed dataLast
    (rewriteOfferMidsForSfu (unlines ['\r', '\n'] dataLast)) :=
  (framed_iff (by decide +kernel)).mpr (by decide +kernel)

/-- An offer whose last section carries audio. -/
def audioLast : List Chars := ["v=0", "m=audio 9", "a=mid:0"].map String.toList

/-- An offer that ends with an audio section loses its last line end. -/
theorem not_framed_audioLast : (∀ line ∈ audioLast, Full line) ∧
    ¬ Framed audioLast (rewriteOfferMidsForSfu (unlines ['\r', '\n'] audioLast)) := by
  refine ⟨by decide +kernel, fun framed => ?_⟩
  have last : (rewriteOfferMidsForSfu (unlines ['\r', '\n'] audioLast)).getLast? = some '\n' :=
    framed.getLast? (by decide)
  exact absurd last (by decide +kernel)

/-- **Renegotiation keeps the mids.** An offer that has been rewritten is left as it is. -/
theorem rewriteOffer_rewriteOffer (full : ∀ line ∈ all, Full line) :
    rewriteOfferMidsForSfu (rewriteOfferMidsForSfu (unlines ['\r', '\n'] all)) =
      rewriteOfferMidsForSfu (unlines ['\r', '\n'] all) := by
  by_cases filled : all = []
  · subst all
    decide
  · rw [rewriteOffer_lines filled full,
      rewriteOffer_ended (edited_ne_nil filled) (full_edited full), keepsEnd_edited,
      Bool.and_self, edited_edited]

/-- Rewriting the first of the two offers again changes nothing. -/
theorem rewriteOffer_dataLast :
    rewriteOfferMidsForSfu (rewriteOfferMidsForSfu (unlines ['\r', '\n'] dataLast)) =
      rewriteOfferMidsForSfu (unlines ['\r', '\n'] dataLast) :=
  rewriteOffer_rewriteOffer (by decide +kernel)

end Rewritten

end Callifornia.OfferText
