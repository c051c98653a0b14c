-- SUMMARY: Requests for entries of mappings: a name and the keys behind it.
import StorageSnapshot.Fault

/-!
# Requests

A request names a mapping and gives a key for each level of it, with colons between them. The last
key may hold colons itself.
-/

namespace StorageSnapshot.Report

/-- The parts around the first colon, if there is one. -/
def splitColon? (cs : List Char) : Option (List Char × List Char) :=
  match cs.dropWhile (· ≠ ':') with
  | _ :: rest => some (cs.takeWhile (· ≠ ':'), rest)
  | [] => none

/-- The name and the keys of a request. Neither may be empty. -/
def splitRequest (request : String) : Except InputError (String × String) :=
  match splitColon? request.toList with
  | some (name@(_ :: _), keys@(_ :: _)) => .ok (String.ofList name, String.ofList keys)
  | _ => .error (.badRequest request)

/-- The keys that a text gives, at most `count` of them: the last one takes the rest of the text. -/
def splitKeys : (count : Nat) → List Char → List (List Char)
  | 0, cs | 1, cs => [cs]
  | count + 2, cs =>
    match splitColon? cs with
    | some (key, rest) => key :: splitKeys (count + 1) rest
    | none => [cs]

/-- The path of keys into nested mappings of this many levels. -/
def keyPath (levels : Nat) (keys : String) : List String :=
  (splitKeys levels keys.toList).map String.ofList

/-- The keys asked for by name, names in the order in which they are first asked for. -/
def addRequest (name keys : String) : List (String × List String) → List (String × List String)
  | [] => [(name, [keys])]
  | (n, ks) :: rest =>
    if n = name then (n, ks ++ [keys]) :: rest else (n, ks) :: addRequest name keys rest

def requests (texts : List String) : Except InputError (List (String × List String)) :=
  texts.foldlM (fun acc text => do
    let (name, keys) ← splitRequest text
    return addRequest name keys acc) []

end StorageSnapshot.Report
