import Mathlib.Data.List.Basic
import Mathlib.Data.List.Infix

/-! # Texts and their lines

Replacing a pattern and splitting at one from left to right, and the lines of a text. A
line ends with a newline, or at the end of the text if that does not follow a newline.
-/

namespace Text

abbrev Chars := List Char

/-! ## Replacing and splitting -/

/-- Replace a pattern; a match skips the characters it has used up. -/
def replaceFrom (pattern new : Chars) : ℕ → Chars → Chars
  | _, [] => []
  | skip + 1, _ :: rest => replaceFrom pattern new skip rest
  | 0, char :: rest =>
      if pattern <+: char :: rest then new ++ replaceFrom pattern new (pattern.length - 1) rest
      else char :: replaceFrom pattern new 0 rest

/-- Replace every match of a pattern. -/
def replace (pattern new text : Chars) : Chars := replaceFrom pattern new 0 text

/-- Split at a separator; a match skips the characters it has used up. -/
def splitFrom (separator : Chars) : ℕ → Chars → List Chars
  | _, [] => [[]]
  | skip + 1, _ :: rest => splitFrom separator skip rest
  | 0, char :: rest =>
      if separator <+: char :: rest then [] :: splitFrom separator (separator.length - 1) rest
      else (splitFrom separator 0 rest).modifyHead (char :: ·)

/-- The texts between the matches of a separator. -/
def split (separator text : Chars) : List Chars := splitFrom separator 0 text

/-- Remove a pattern from the start as often as it is there. -/
def trimStartFrom (pattern : Chars) : ℕ → Chars → Chars
  | _, [] => []
  | skip + 1, _ :: rest => trimStartFrom pattern skip rest
  | 0, char :: rest =>
      if pattern <+: char :: rest then trimStartFrom pattern (pattern.length - 1) rest
      else char :: rest

def trimStartMatches (pattern text : Chars) : Chars := trimStartFrom pattern 0 text

section

variable {head : Char} {pattern new text rest : Chars}

/-- What a match has used up is not looked at again. -/
theorem replaceFrom_skip (skipped : Chars) :
    replaceFrom pattern new skipped.length (skipped ++ rest) = replaceFrom pattern new 0 rest := by
  induction skipped with
  | nil => rfl
  | cons char skipped ih => exact ih

/-- A match is replaced. -/
theorem replaceFrom_match :
    replaceFrom (head :: pattern) new 0 (head :: pattern ++ rest) =
      new ++ replaceFrom (head :: pattern) new 0 rest := by
  rw [List.cons_append, replaceFrom, if_pos ⟨rest, rfl⟩, List.length_cons, Nat.add_sub_cancel,
    replaceFrom_skip]

/-- Nothing starts where the first character of the pattern is missing. -/
theorem replaceFrom_append (free : head ∉ text) :
    replaceFrom (head :: pattern) new 0 (text ++ rest) =
      text ++ replaceFrom (head :: pattern) new 0 rest := by
  induction text with
  | nil => rfl
  | cons char text ih =>
      obtain ⟨other, free⟩ := not_or.mp (mt List.mem_cons.mpr free)
      have miss : ¬ (head :: pattern) <+: char :: (text ++ rest) := by
        intro starts
        exact other (List.cons_prefix_cons.mp starts).1
      rw [List.cons_append, replaceFrom, if_neg miss, ih free, List.cons_append]

/-- What a separator has used up is not looked at again. -/
theorem splitFrom_skip (skipped : Chars) :
    splitFrom pattern skipped.length (skipped ++ rest) = splitFrom pattern 0 rest := by
  induction skipped with
  | nil => rfl
  | cons char skipped ih => exact ih

/-- A match ends a piece. -/
theorem splitFrom_match :
    splitFrom (head :: pattern) 0 (head :: pattern ++ rest) =
      [] :: splitFrom (head :: pattern) 0 rest := by
  rw [List.cons_append, splitFrom, if_pos ⟨rest, rfl⟩, List.length_cons, Nat.add_sub_cancel,
    splitFrom_skip]

/-- A character that starts no separator belongs to the piece. -/
theorem splitFrom_miss {char : Char} (miss : ¬ pattern <+: char :: rest) :
    splitFrom pattern 0 (char :: rest) = (splitFrom pattern 0 rest).modifyHead (char :: ·) := by
  rw [splitFrom, if_neg miss]

/-- Characters are put in front of the first piece one after the other. -/
theorem modifyHead_append (front : Chars) (pieces : List Chars) (char : Char) :
    (pieces.modifyHead (front ++ ·)).modifyHead (char :: ·) =
      pieces.modifyHead (char :: front ++ ·) := by
  cases pieces <;> rfl

/-- Nothing ends where the first character of the separator is missing. -/
theorem splitFrom_append (free : head ∉ text) :
    splitFrom (head :: pattern) 0 (text ++ rest) =
      (splitFrom (head :: pattern) 0 rest).modifyHead (text ++ ·) := by
  induction text with
  | nil =>
      rw [List.nil_append]
      cases splitFrom (head :: pattern) 0 rest <;> rfl
  | cons char text ih =>
      obtain ⟨other, free⟩ := not_or.mp (mt List.mem_cons.mpr free)
      have miss : ¬ (head :: pattern) <+: char :: (text ++ rest) := by
        intro starts
        exact other (List.cons_prefix_cons.mp starts).1
      rw [List.cons_append, splitFrom_miss miss, ih free, modifyHead_append]

end

/-! ## Lines -/

/-- The line is not blank. -/
def nonblank (line : Chars) : Bool := line ≠ []

/-- A line with a character is not blank. -/
theorem nonblank_eq_true {line : Chars} (some : line ≠ []) : nonblank line = true :=
  decide_eq_true some

/-- The empty line is blank. -/
theorem nonblank_nil : ¬ nonblank [] = true := Bool.false_ne_true

/-- The text of some lines with newlines between them. -/
def joinLines (all : List Chars) : Chars := ['\n'].intercalate all

/-- The text of some lines with an end after each. -/
def unlines (ending : Chars) (all : List Chars) : Chars := all.flatMap (· ++ ending)

/-- The lines of a text, without the newlines. -/
def rawLines (text : Chars) : List Chars :=
  (text.splitOn '\n').dropLast ++ (text.splitOn '\n').getLast?.toList.filter nonblank

/-- Remove a carriage return from the end. -/
def trimReturn (line : Chars) : Chars :=
  if line.getLast? = some '\r' then line.dropLast else line

/-- The lines of a text; a carriage return before a newline belongs to the line's end. -/
def lines (text : Chars) : List Chars :=
  (text.splitOn '\n').dropLast.map trimReturn ++
    (text.splitOn '\n').getLast?.toList.filter nonblank

/-- The lines that are not blank. -/
def content (text : Chars) : List Chars := (text.splitOn '\n').filter nonblank

/-- A line without an end in it. -/
def Plain (line : Chars) : Prop := '\n' ∉ line ∧ '\r' ∉ line

instance (line : Chars) : Decidable (Plain line) := inferInstanceAs (Decidable (_ ∧ _))

section

variable {line text first second : Chars} {all : List Chars}

/-- A newline ends a line. -/
theorem rawLines_newline (plain : '\n' ∉ line) :
    rawLines (line ++ '\n' :: text) = line :: rawLines text := by
  rw [rawLines, List.splitOn_append_cons_self_of_not_mem plain,
    List.dropLast_cons_of_ne_nil (List.splitOn_ne_nil _ _), List.getLast?_cons_of_ne_nil
      (List.splitOn_ne_nil _ _)]
  rfl

/-- A text without a newline is one line, or none if it is empty. -/
theorem rawLines_last (plain : '\n' ∉ line) : rawLines line = [line].filter nonblank := by
  rw [rawLines, List.splitOn_eq_singleton plain]
  rfl

/-- A line without a return is kept. -/
theorem trimReturn_plain (plain : '\r' ∉ line) : trimReturn line = line := by
  unfold trimReturn
  rw [if_neg]
  intro last
  exact plain (List.mem_of_getLast? last)

/-- The return at the end of a line is cut off. -/
theorem trimReturn_return : trimReturn (line ++ ['\r']) = line := by
  rw [trimReturn, List.getLast?_concat, if_pos rfl, List.dropLast_concat]

/-- A plain line is read back, and the rest after it. -/
theorem lines_newline (plain : Plain line) : lines (line ++ '\n' :: text) = line :: lines text := by
  rw [lines, List.splitOn_append_cons_self_of_not_mem plain.1,
    List.dropLast_cons_of_ne_nil (List.splitOn_ne_nil _ _), List.getLast?_cons_of_ne_nil
      (List.splitOn_ne_nil _ _), List.map_cons, trimReturn_plain plain.2]
  rfl

/-- The last line is read without a newline after it. -/
theorem lines_last (plain : '\n' ∉ line) : lines line = [line].filter nonblank := by
  rw [lines, List.splitOn_eq_singleton plain]
  rfl

/-- Between two lines stands a newline. -/
theorem joinLines_cons (nonempty : all ≠ []) :
    joinLines (line :: all) = line ++ '\n' :: joinLines all := by
  rw [joinLines, List.intercalate_cons_of_ne_nil nonempty, List.append_assoc]
  rfl

/-- The lines of a text are read back, but for a blank line at its end. -/
theorem lines_joinLines (plain : ∀ line ∈ all, Plain line) :
    lines (joinLines all) = all ∨ all = lines (joinLines all) ++ [[]] := by
  induction all with
  | nil => exact .inl rfl
  | cons line all ih =>
      obtain ⟨now, rest⟩ := List.forall_mem_cons.mp plain
      by_cases last : all = []
      · subst all
        have alone : joinLines [line] = line := List.intercalate_singleton
        rw [alone, lines_last now.1]
        by_cases blank : line = []
        · subst line
          exact .inr rfl
        · exact .inl (List.filter_cons_of_pos (nonblank_eq_true blank))
      · rw [joinLines_cons last, lines_newline now]
        rcases ih rest with same | same
        · exact .inl (congrArg _ same)
        · exact .inr (congrArg _ same)

/-- Lines that are ended are read back. -/
theorem lines_unlines (plain : ∀ line ∈ all, Plain line) : lines (unlines ['\n'] all) = all := by
  induction all with
  | nil => rfl
  | cons line all ih =>
      obtain ⟨now, rest⟩ := List.forall_mem_cons.mp plain
      rw [unlines, List.flatMap_cons, List.append_assoc, List.singleton_append, lines_newline now]
      exact congrArg _ (ih rest)

/-! ### Blank lines aside -/

/-- The content of two texts on their own lines. -/
theorem content_newline : content (first ++ '\n' :: second) = content first ++ content second := by
  rw [content, List.splitOn_append_cons_self, List.filter_append]
  rfl

/-- The content of joined lines are those that are not blank. -/
theorem content_joinLines (plain : ∀ line ∈ all, '\n' ∉ line) :
    content (joinLines all) = all.filter nonblank := by
  cases all with
  | nil => rfl
  | cons line all =>
      rw [content, joinLines, List.splitOn_intercalate _ plain (List.cons_ne_nil _ _)]

/-- The characters of joined lines. -/
theorem mem_intercalate {char : Char} {separator : Chars}
    (member : char ∈ separator.intercalate all) :
    char ∈ separator ∨ ∃ line ∈ all, char ∈ line := by
  induction all with
  | nil => cases member
  | cons line all ih =>
      by_cases last : all = []
      · subst all
        rw [List.intercalate_singleton] at member
        exact .inr ⟨line, List.mem_cons_self, member⟩
      · rw [List.intercalate_cons_of_ne_nil last] at member
        rcases List.mem_append.mp member with front | rest
        · rcases List.mem_append.mp front with own | between
          · exact .inr ⟨line, List.mem_cons_self, own⟩
          · exact .inl between
        · rcases ih rest with between | ⟨other, listed, inside⟩
          · exact .inl between
          · exact .inr ⟨other, List.mem_cons_of_mem _ listed, inside⟩

/-- Joined plain lines have no return. -/
theorem plain_joinLines (plain : ∀ line ∈ all, Plain line) : '\r' ∉ joinLines all := by
  intro member
  rcases mem_intercalate member with newline | ⟨line, listed, inside⟩
  · cases List.mem_singleton.mp newline
  · exact (plain line listed).2 inside

/-- The pieces of a text are made of its characters. -/
theorem mem_of_mem_splitOn {char : Char} (piece : line ∈ text.splitOn '\n')
    (member : char ∈ line) : char ∈ text ∧ char ≠ '\n' := by
  induction text generalizing line with
  | nil =>
      rw [List.splitOn_nil] at piece
      rw [List.mem_singleton.mp piece] at member
      cases member
  | cons first text ih =>
      rw [List.splitOn_cons_eq_if_modifyHead] at piece
      by_cases newline : first = '\n'
      · rw [if_pos (beq_iff_eq.mpr newline)] at piece
        rcases List.mem_cons.mp piece with rfl | later
        · cases member
        · exact ⟨List.mem_cons_of_mem _ (ih later member).1, (ih later member).2⟩
      · rw [if_neg (mt beq_iff_eq.mp newline)] at piece
        have nonempty := List.splitOn_ne_nil '\n' text
        cases pieces : text.splitOn '\n' with
        | nil => exact absurd pieces nonempty
        | cons head tail =>
            rw [pieces] at piece ih
            rcases List.mem_cons.mp piece with rfl | later
            · rcases List.mem_cons.mp member with rfl | inside
              · exact ⟨List.mem_cons_self, newline⟩
              · obtain ⟨inside, other⟩ := ih List.mem_cons_self inside
                exact ⟨List.mem_cons_of_mem _ inside, other⟩
            · obtain ⟨inside, other⟩ := ih (List.mem_cons_of_mem _ later) member
              exact ⟨List.mem_cons_of_mem _ inside, other⟩

/-- Lines that are ended otherwise read the same. -/
theorem rawLines_crlf (plain : ∀ line ∈ all, Plain line) :
    ((rawLines (replace ['\n'] ['\r', '\n'] (joinLines all))).map trimReturn).filter nonblank =
      all.filter nonblank := by
  induction all with
  | nil => rfl
  | cons line all ih =>
      obtain ⟨now, rest⟩ := List.forall_mem_cons.mp plain
      by_cases last : all = []
      · subst all
        have alone : joinLines [line] = line := List.intercalate_singleton
        have same : replace ['\n'] ['\r', '\n'] line = line := by
          have copied : replaceFrom ['\n'] ['\r', '\n'] 0 (line ++ []) =
              line ++ replaceFrom ['\n'] ['\r', '\n'] 0 [] := replaceFrom_append now.1
          rw [List.append_nil] at copied
          exact copied.trans (List.append_nil line)
        rw [alone, same, rawLines_last now.1]
        by_cases blank : line = []
        · subst line
          rfl
        · have kept : [line].filter nonblank = [line] :=
            List.filter_cons_of_pos (nonblank_eq_true blank)
          rw [kept, List.map_singleton, trimReturn_plain now.2, kept]
      · have copied : replace ['\n'] ['\r', '\n'] (joinLines (line :: all)) =
            (line ++ ['\r']) ++ '\n' :: replace ['\n'] ['\r', '\n'] (joinLines all) := by
          rw [joinLines_cons last, replace, replaceFrom_append now.1]
          have matched : replaceFrom ['\n'] ['\r', '\n'] 0 ('\n' :: joinLines all) =
              ['\r', '\n'] ++ replaceFrom ['\n'] ['\r', '\n'] 0 (joinLines all) :=
            replaceFrom_match
          rw [List.append_assoc]
          exact congrArg _ matched
        have plain : '\n' ∉ line ++ ['\r'] := by
          intro member
          rcases List.mem_append.mp member with inside | inside
          · exact now.1 inside
          · cases List.mem_singleton.mp inside
        rw [copied, rawLines_newline plain, List.map_cons, trimReturn_return, List.filter_cons,
          List.filter_cons, ih rest]

/-- A text whose newlines became CRLF has the content it had. -/
theorem content_crlf (plain : '\r' ∉ text) :
    ((rawLines (replace ['\n'] ['\r', '\n'] text)).map trimReturn).filter nonblank =
      content text := by
  have pieces (line : Chars) (piece : line ∈ text.splitOn '\n') : Plain line :=
    ⟨fun member => (mem_of_mem_splitOn piece member).2 rfl,
      fun member => plain (mem_of_mem_splitOn piece member).1⟩
  have whole : joinLines (text.splitOn '\n') = text := List.intercalate_splitOn '\n'
  have read := rawLines_crlf pieces
  rw [whole] at read
  exact read

end

/-! ### The end of a text -/

/-- The text of some lines, with a newline after the last one or without. -/
def ended (newline : Bool) (all : List Chars) : Chars :=
  joinLines all ++ if newline then ['\n'] else []

/-- A line with something on it. -/
def Full (line : Chars) : Prop := line ≠ [] ∧ Plain line

instance (line : Chars) : Decidable (Full line) := inferInstanceAs (Decidable (_ ∧ _))

section

variable {text line start : Chars} {all more : List Chars} {newline : Bool}

/-- Two blocks of lines are joined by a newline. -/
theorem joinLines_append (filled : all ≠ []) (next : more ≠ []) :
    joinLines (all ++ more) = joinLines all ++ '\n' :: joinLines more := by
  induction all with
  | nil => exact absurd rfl filled
  | cons line all ih =>
      by_cases last : all = []
      · subst all
        have alone : joinLines [line] = line := List.intercalate_singleton
        rw [List.singleton_append, joinLines_cons next, alone]
      · have joined : (all ++ more) ≠ [] := List.append_ne_nil_of_left_ne_nil last more
        rw [List.cons_append, joinLines_cons joined, ih last, joinLines_cons last,
          List.append_assoc, List.cons_append]

/-- Two blocks of lines, the second with its end. -/
theorem ended_append (filled : all ≠ []) (next : more ≠ []) :
    ended newline (all ++ more) = joinLines all ++ '\n' :: ended newline more := by
  rw [ended, joinLines_append filled next, List.append_assoc]
  rfl

/-- Without an end the lines are only joined. -/
theorem ended_false : ended false all = joinLines all := List.append_nil _

/-- One line with its end. -/
theorem ended_singleton : ended newline [line] = line ++ if newline then ['\n'] else [] :=
  congrArg (· ++ _) List.intercalate_singleton

/-- A line in front of others. -/
theorem ended_cons (next : more ≠ []) :
    ended newline (line :: more) = line ++ '\n' :: ended newline more := by
  have alone : joinLines [line] = line := List.intercalate_singleton
  have cut := @ended_append [line] more newline (List.cons_ne_nil _ _) next
  rwa [alone] at cut

/-- What stands in front of a block stands in front of its first line. -/
theorem append_ended (front : Chars) :
    front ++ ended newline (line :: more) = ended newline ((front ++ line) :: more) := by
  by_cases last : more = []
  · subst more
    rw [ended_singleton, ended_singleton, List.append_assoc]
  · rw [ended_cons last, ended_cons last, List.append_assoc]

/-- What starts a line is not cut off by its end. -/
theorem prefix_of_prefix_newline (plain : '\n' ∉ start) (starts : start <+: line ++ '\n' :: text) :
    start <+: line := by
  induction line generalizing start with
  | nil =>
      cases start with
      | nil => exact List.nil_prefix
      | cons char start =>
          have same := (List.cons_prefix_cons.mp starts).1
          exact absurd (same ▸ List.mem_cons_self) plain
  | cons head line ih =>
      cases start with
      | nil => exact List.nil_prefix
      | cons char start =>
          obtain ⟨same, starts⟩ := List.cons_prefix_cons.mp starts
          exact List.cons_prefix_cons.mpr
            ⟨same, ih (fun member => plain (List.mem_cons_of_mem _ member)) starts⟩

/-- A text starts as its first line does. -/
theorem prefix_ended_iff (plain : '\n' ∉ start) :
    start <+: ended newline (line :: more) ↔ start <+: line := by
  constructor
  · intro starts
    by_cases last : more = []
    · subst more
      rw [ended_singleton] at starts
      cases newline with
      | true => exact prefix_of_prefix_newline plain starts
      | false => exact List.append_nil line ▸ starts
    · rw [ended_cons last] at starts
      exact prefix_of_prefix_newline plain starts
  · intro starts
    rw [← List.append_nil line, ← append_ended]
    exact starts.trans (List.prefix_append _ _)

/-- Ending every line is joining the lines and ending the last. -/
theorem unlines_eq_ended (filled : all ≠ []) : unlines ['\n'] all = ended true all := by
  induction all with
  | nil => exact absurd rfl filled
  | cons line all ih =>
      by_cases last : all = []
      · subst all
        have alone : joinLines [line] = line := List.intercalate_singleton
        rw [ended, alone]
        exact List.append_nil _
      · rw [unlines, List.flatMap_cons, ended, joinLines_cons last, List.append_assoc,
          List.append_assoc, List.singleton_append]
        exact congrArg (fun rest => line ++ '\n' :: rest) (ih last)

/-- Ended lines in front of a text. -/
theorem unlines_append (filled : all ≠ []) :
    unlines ['\n'] all ++ text = joinLines all ++ '\n' :: text := by
  rw [unlines_eq_ended filled]
  exact List.append_assoc ..

/-- Full lines are read back from their text, however it ends. -/
theorem lines_ended (filled : all ≠ []) (full : ∀ line ∈ all, Full line) :
    lines (ended newline all) = all := by
  have plain (line : Chars) (member : line ∈ all) : Plain line := (full line member).2
  cases newline with
  | true =>
      rw [← unlines_eq_ended filled]
      exact lines_unlines plain
  | false =>
      rw [ended_false]
      refine (lines_joinLines plain).resolve_right fun blank => ?_
      have member : [] ∈ all := blank ▸ List.mem_append_right _ List.mem_cons_self
      exact (full [] member).1 rfl

/-- The last of some full lines has a last character, which is no newline. -/
theorem not_newline_joinLines (filled : all ≠ []) (full : ∀ line ∈ all, Full line) :
    (joinLines all).getLast? ≠ some '\n' := by
  obtain ⟨front, last, rfl⟩ := (List.eq_nil_or_concat' all).resolve_left filled
  obtain ⟨nonempty, plain⟩ := full last (List.mem_append_right _ List.mem_cons_self)
  have alone : joinLines [last] = last := List.intercalate_singleton
  have own : (joinLines (front ++ [last])).getLast? = last.getLast? := by
    by_cases first : front = []
    · subst front
      rw [List.nil_append, alone]
    · rw [joinLines_append first (List.cons_ne_nil _ _), alone, List.getLast?_append,
        List.getLast?_cons_of_ne_nil nonempty, List.getLast?_eq_some_getLast nonempty]
      rfl
  rw [own]
  intro newline
  exact plain.1 (List.mem_of_getLast? newline)

/-- Plain lines have no return, ended or not. -/
theorem not_return_ended (plain : ∀ line ∈ all, Plain line) : '\r' ∉ ended newline all := by
  intro member
  rcases List.mem_append.mp member with inside | inside
  · exact plain_joinLines plain inside
  · cases newline with
    | true => cases List.mem_singleton.mp inside
    | false => cases inside

/-! ### Newlines that are written with a carriage return -/

/-- A newline becomes CRLF. -/
theorem replace_newline : replace ['\n'] ['\r', '\n'] ('\n' :: text) =
    '\r' :: '\n' :: replace ['\n'] ['\r', '\n'] text := replaceFrom_match

/-- Any other character stays. -/
theorem replace_other {char : Char} (other : char ≠ '\n') :
    replace ['\n'] ['\r', '\n'] (char :: text) =
      char :: replace ['\n'] ['\r', '\n'] text := by
  refine if_neg fun starts => ?_
  exact other (List.cons_prefix_cons.mp starts).1.symm

/-- They are written back. -/
theorem replace_replace (plain : '\r' ∉ text) :
    replace ['\r', '\n'] ['\n'] (replace ['\n'] ['\r', '\n'] text) = text := by
  induction text with
  | nil => rfl
  | cons char text ih =>
      obtain ⟨other, later⟩ := not_or.mp (mt List.mem_cons.mpr plain)
      by_cases newline : char = '\n'
      · subst char
        have matched (rest : Chars) : replace ['\r', '\n'] ['\n'] ('\r' :: '\n' :: rest) =
            '\n' :: replace ['\r', '\n'] ['\n'] rest := replaceFrom_match
        rw [replace_newline, matched, ih later]
      · have copied (rest : Chars) : replace ['\r', '\n'] ['\n'] (char :: rest) =
            char :: replace ['\r', '\n'] ['\n'] rest :=
          if_neg fun starts => other (List.cons_prefix_cons.mp starts).1
        rw [replace_other newline, copied, ih later]

/-- Ending plain lines by newlines and then making them CRLF is ending them by CRLF. -/
theorem replace_unlines (plain : ∀ line ∈ all, Plain line) :
    replace ['\n'] ['\r', '\n'] (unlines ['\n'] all) = unlines ['\r', '\n'] all := by
  induction all with
  | nil => rfl
  | cons line all ih =>
      obtain ⟨now, plain⟩ := List.forall_mem_cons.mp plain
      have cut (ending : Chars) : unlines ending (line :: all) =
          line ++ (ending ++ unlines ending all) := List.append_assoc ..
      rw [cut, cut, replace, replaceFrom_append now.1]
      exact congrArg (line ++ ·) (replace_newline.trans (congrArg (['\r', '\n'] ++ ·) (ih plain)))

/-- A newline at the end stays at the end. -/
theorem getLast?_replace :
    (replace ['\n'] ['\r', '\n'] text).getLast? = text.getLast? := by
  induction text with
  | nil => rfl
  | cons char text ih =>
      by_cases newline : char = '\n'
      · subst char
        rw [replace_newline, List.getLast?_cons_cons, List.getLast?_cons, List.getLast?_cons, ih]
      · rw [replace_other newline, List.getLast?_cons, List.getLast?_cons, ih]

end

end Text
