-- SUMMARY: How messages show untyped values.
import StorageSnapshot.Datum.Basic
import StorageSnapshot.Double.Text
import StorageSnapshot.Text.Numeral
import StorageSnapshot.Text.Quoted

/-!
# Display of untyped values

`quoted` shows every value so that it can be told apart, strings between quotes. `display` leaves a
string that stands alone as it is. Both are only asked of a value that can be written: no integer in
it has too many digits.
-/

namespace StorageSnapshot.Datum

mutual

def quoted : Datum → String
  | .null => "None"
  | .bool b => if b then "True" else "False"
  | .int n => Text.decimal n
  | .float x => x.text
  | .text s => Text.quoted s
  | .bytes b => Text.quotedBytes b
  | .list xs => "[" ++ ", ".intercalate (quotedItems xs) ++ "]"
  | .object ms => "\x7b" ++ ", ".intercalate (quotedMembers ms) ++ "\x7d"

def quotedItems : List Datum → List String
  | [] => []
  | x :: xs => quoted x :: quotedItems xs

def quotedMembers : List (String × Datum) → List String
  | [] => []
  | (k, v) :: ms => (Text.quoted k ++ ": " ++ quoted v) :: quotedMembers ms

end

def display : Datum → String
  | .text s => s
  | d => d.quoted

mutual

/-- Whether every integer in a value can be written. -/
def isWritable : Datum → Bool
  | .int n => Text.isWritable n
  | .list xs => areWritable xs
  | .object ms => membersAreWritable ms
  | _ => true

def areWritable : List Datum → Bool
  | [] => true
  | x :: xs => isWritable x && areWritable xs

def membersAreWritable : List (String × Datum) → Bool
  | [] => true
  | (_, v) :: ms => isWritable v && membersAreWritable ms

end

/-- The word that says which kind of value this is. -/
def kindName : Datum → String
  | .null => "NoneType"
  | .bool _ => "bool"
  | .int _ => "int"
  | .float _ => "float"
  | .text _ => "str"
  | .bytes _ => "bytes"
  | .list _ => "list"
  | .object _ => "dict"

@[simp] theorem display_text (s : String) : display (.text s) = s := rfl

end StorageSnapshot.Datum
