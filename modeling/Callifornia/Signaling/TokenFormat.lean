import Callifornia.Signaling.Auth

/-! # A token format to compute with

The fields of a token in the clear, one after the other. Each ends with a character that is
marked wherever it stands in a field.
-/

namespace Callifornia.Signaling.TokenFormat

section Quoting

variable (stop mark : Char)

/-- Mark the characters that mean something. -/
def escape : List Char → List Char
  | [] => []
  | char :: chars =>
      if char = stop ∨ char = mark then mark :: char :: escape chars else char :: escape chars

/-- A text with its end. -/
def quote (chars : List Char) : List Char := escape stop mark chars ++ [stop]

/-- The texts that have been quoted, after the start of the first. -/
def unquote : List Char → List Char → List String
  | _, [] => []
  | read, [char] => if char = stop then [String.ofList read.reverse] else []
  | read, char :: next :: rest =>
      if char = stop then String.ofList read.reverse :: unquote [] (next :: rest)
      else if char = mark then unquote (next :: read) rest
      else unquote (char :: read) (next :: rest)

variable {stop mark}

theorem unquote_stop (read rest : List Char) :
    unquote stop mark read (stop :: rest) =
      String.ofList read.reverse :: unquote stop mark [] rest := by
  cases rest with
  | nil => simp only [unquote, if_pos]
  | cons next rest => rw [unquote, if_pos rfl]

theorem unquote_quote (apart : mark ≠ stop) (read chars rest : List Char) :
    unquote stop mark read (quote stop mark chars ++ rest) =
      String.ofList (read.reverse ++ chars) :: unquote stop mark [] rest := by
  rw [quote, List.append_assoc, List.singleton_append]
  induction chars generalizing read with
  | nil => rw [escape, List.nil_append, unquote_stop, List.append_nil]
  | cons char chars ih =>
      have next : String.ofList ((char :: read).reverse ++ chars) =
          String.ofList (read.reverse ++ char :: chars) := by
        rw [List.reverse_cons, List.append_assoc, List.singleton_append]
      rw [← next, ← ih, escape]
      by_cases marked : char = stop ∨ char = mark
      · rw [if_pos marked, List.cons_append, List.cons_append, unquote, if_neg apart, if_pos rfl]
      · obtain ⟨notEnd, notMark⟩ := not_or.mp marked
        obtain ⟨after, others, more⟩ : ∃ after others,
            escape stop mark chars ++ stop :: rest = after :: others := by
          cases escape stop mark chars with
          | nil => exact ⟨_, _, rfl⟩
          | cons after others => exact ⟨_, _, rfl⟩
        rw [if_neg marked, List.cons_append, more, unquote, if_neg notEnd, if_neg notMark]

theorem unquote_flatMap (apart : mark ≠ stop) (texts : List String) :
    unquote stop mark [] (texts.flatMap fun text => quote stop mark text.toList) = texts := by
  induction texts with
  | nil => rfl
  | cons text texts ih =>
      rw [List.flatMap_cons, unquote_quote apart, ih]
      simp only [List.reverse_nil, List.nil_append, String.ofList_toList]

/-- Quoted texts end with the end of the last. -/
theorem dropLast_flatMap {texts : List String} (some : texts ≠ []) :
    (texts.flatMap fun text => quote stop mark text.toList).dropLast ++ [stop] =
      texts.flatMap fun text => quote stop mark text.toList := by
  obtain rfl | ⟨init, last, rfl⟩ := List.eq_nil_or_concat texts
  · exact absurd rfl some
  · rw [List.concat_eq_append, List.flatMap_append, List.flatMap_singleton, quote,
      ← List.append_assoc, List.dropLast_concat]

end Quoting

/-- The fields, with a mark for a room. -/
def textsOf (secret : String) (claims : ConnectorClaims) : List String :=
  [secret, claims.jti, claims.sessionId, claims.nickname, claims.signalingInstanceId,
    claims.intent, toString claims.iat, toString claims.exp] ++ claims.roomId.toList

def number (text : String) : ℕ := Nat.ofDigitChars 10 text.toList 0

def claimsOf (secret : String) : List String → Option ConnectorClaims
  | owner :: jti :: sessionId :: nickname :: signalingInstanceId :: intent :: iat :: exp :: rooms =>
      if owner = secret then
        some { jti, sessionId, nickname, signalingInstanceId, intent, roomId := rooms.head?
               iat := number iat, exp := number exp }
      else none
  | _ => none

theorem number_toString (value : ℕ) : number (toString value) = value := by
  have digits : (toString value).toList = Nat.toDigits 10 value := Nat.toList_repr
  rw [number, digits, Nat.ofDigitChars_ten_toDigits]

/-- The format. -/
def openJwt : Jwt where
  encode secret claims :=
    String.ofList ((textsOf secret claims).flatMap fun text => quote '.' '_' text.toList)
  decode secret token := claimsOf secret (unquote '.' '_' [] token.toList)
  decode_encode secret claims := by
    rw [String.toList_ofList, unquote_flatMap (by decide)]
    simp only [textsOf, List.cons_append, List.nil_append, claimsOf, if_true, number_toString]
    cases claims with
    | mk jti sessionId nickname signalingInstanceId intent roomId iat exp =>
        cases roomId <;> rfl

end Callifornia.Signaling.TokenFormat
