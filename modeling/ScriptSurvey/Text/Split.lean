/-!
# Splitting texts

A text cut at each occurrence of a character, the pieces in order. There is always one piece more
than there are occurrences.
-/

namespace ScriptSurvey.Text

/-- The pieces between the characters that satisfy `cut`. -/
def pieces (cut : Char → Bool) : List Char → List (List Char)
  | [] => [[]]
  | c :: cs =>
    if cut c then [] :: pieces cut cs
    else
      match pieces cut cs with
      | [] => [[c]]
      | piece :: rest => (c :: piece) :: rest

/-- The pieces of a text between the occurrences of `sep`. -/
def splitAt (sep : Char) (text : String) : List String :=
  (pieces (· == sep) text.toList).map String.ofList

theorem length_pieces (cut : Char → Bool) (cs : List Char) :
    (pieces cut cs).length = cs.countP cut + 1 := by
  induction cs with
  | nil => rfl
  | cons c cs ih =>
    rw [pieces, List.countP_cons]
    cases hc : cut c with
    | true => simp [ih]
    | false =>
      cases hp : pieces cut cs with
      | nil => simp [hp] at ih
      | cons piece rest => simpa [hp] using ih

/-- The number of lines of a text: the pieces between its line feeds. -/
def lineCount (text : String) : Nat :=
  (splitAt '\n' text).length

/-- A text has one line more than line feeds. -/
theorem lineCount_eq (text : String) : lineCount text = text.toList.count '\n' + 1 := by
  rw [lineCount, splitAt, List.length_map, length_pieces, List.count_eq_countP]

end ScriptSurvey.Text
