import CodeSample.Data.Basic
import CodeSample.Text.Quoted

/-!
# Data in messages

How a message shows a datum: texts quoted, lists in brackets, objects in braces with a colon after
each name, and the three constants as words.

* `display` is a datum as messages show it, `said` what it says when it is the message.
-/

namespace CodeSample.Data

mutual

/-- A datum as messages show it. -/
def display : Data → String
  | null => "None"
  | bool b => if b then "True" else "False"
  | int n => toString n
  | float x => x.toText
  | text s => Text.quoted s
  | list xs => "[" ++ displayItems xs ++ "]"
  | object ms => "\x7b" ++ displayMembers ms ++ "\x7d"

/-- Items between commas. -/
def displayItems : List Data → String
  | [] => ""
  | [x] => display x
  | x :: xs => display x ++ ", " ++ displayItems xs

/-- Members between commas. -/
def displayMembers : List (String × Data) → String
  | [] => ""
  | [(k, x)] => Text.quoted k ++ ": " ++ display x
  | (k, x) :: ms => Text.quoted k ++ ": " ++ display x ++ ", " ++ displayMembers ms

end

/-- What a datum says in a message: a text as it is, any other datum as messages show it. -/
def said : Data → String
  | text s => s
  | d => d.display

end CodeSample.Data
