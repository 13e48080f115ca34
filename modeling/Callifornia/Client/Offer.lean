import Callifornia.Text.Lines

/-! # The client's offer

Before it is set and sent, the text of an offer is rewritten: its media sections get the
mids of the fixed slots of the SFU, in the order in which they come.
-/

namespace Callifornia.Client

open Text

def mediaPrefix : Chars := "m=".toList

def midPrefix : Chars := "a=mid:".toList

/-- The line gives a mid. -/
def isMid (line : Chars) : Bool := midPrefix <+: line

def bundlePrefix : Chars := "a=group:BUNDLE".toList

/-- The mids that have been replaced, with those they have been replaced with. -/
abbrev MidMap := List (Chars × Chars)

def rewriteSectionMid (media nextMid : Chars) (midMap : MidMap) : Chars × MidMap :=
  (joinLines ((lines media).map fun line =>
      if isMid line then midPrefix ++ nextMid else line),
    midMap ++ ((lines media).filter isMid).map fun line =>
      (trimStartMatches midPrefix line, nextMid))

/-- Rewrite the sections, each given without its first two characters. -/
def rewriteSections : List Chars → ℕ → MidMap → List Chars × MidMap
  | [], _, midMap => ([], midMap)
  | media :: sections, videoSeen, midMap =>
      if "m=audio".toList <+: mediaPrefix ++ media then
        let rewritten := rewriteSectionMid (mediaPrefix ++ media) "audio_main".toList midMap
        let rest := rewriteSections sections videoSeen rewritten.2
        (rewritten.1 :: rest.1, rest.2)
      else if "m=video".toList <+: mediaPrefix ++ media then
        let mid := if videoSeen + 1 = 1 then "video_camera".toList else "video_screen".toList
        let rewritten := rewriteSectionMid (mediaPrefix ++ media) mid midMap
        let rest := rewriteSections sections (videoSeen + 1) rewritten.2
        (rewritten.1 :: rest.1, rest.2)
      else
        let rest := rewriteSections sections videoSeen midMap
        ((mediaPrefix ++ media) :: rest.1, rest.2)

def rewriteBundleGroup (session : Chars) (midMap : MidMap) : Chars :=
  joinLines ((lines session).map fun line =>
    if ¬ bundlePrefix <+: line then line
    else if midMap.map Prod.snd = [] then line
    else "a=group:BUNDLE ".toList ++ [' '].intercalate (midMap.map Prod.snd))

/-- Append a section on a line of its own. -/
def appendSection (out media : Chars) : Chars :=
  (if out.getLast? = some '\n' then out else out ++ ['\n']) ++ media

def rewriteOfferMidsForSfu (sdp : Chars) : Chars :=
  match split ('\n' :: mediaPrefix) (replace ['\r', '\n'] ['\n'] sdp) with
  | [] => sdp
  | session :: sections =>
      let rewritten := rewriteSections sections 0 []
      replace ['\n'] ['\r', '\n']
        (rewritten.1.foldl appendSection (rewriteBundleGroup session rewritten.2))

end Callifornia.Client
