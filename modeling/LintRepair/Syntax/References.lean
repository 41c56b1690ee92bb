import LintRepair.Syntax.Comments
import LintRepair.Syntax.Complaint

/-!
# References of a file

Comments of three slashes at the head of a file that hold a tag: they name files, types and libraries on
which the file depends, or the module that it is.
-/
namespace LintRepair.Syntax

/-- What a reference leads to. -/
inductive Target where
  | path | types | lib
deriving DecidableEq, Repr, Inhabited

def Target.word : Target → String
  | path => "path"
  | types => "types"
  | lib => "lib"

/-- What a tag at the head of a file says. -/
inductive Reference where
  | withoutLibrary
  /-- `mode` is how the target is looked up, where that is said. -/
  | leads (target : Target) (name : Text) (mode : Option String) (preserve : Bool)
  | dependency (path : Text) (name : Option Text)
  | moduleName (name : Text)
deriving DecidableEq, Repr, Inhabited

namespace Reference

/-! ## Reading a tag -/

def isWhite (u : UInt16) : Bool := isGap u.toNat || isLineEnd u.toNat

def lower (u : UInt16) : UInt16 := if 0x41 ≤ u && u ≤ 0x5A then u + 0x20 else u

/-- The rest of a text behind a word in any case of letters. -/
def behindWord? (word : String) (t : Text) : Option Text :=
  let units := Text.ofString word
  if (t.take units.length).map lower = units then some (t.drop units.length) else none

/-- A text in quotes of one kind at the start, and the rest. -/
def quotedStart? : Text → Option (Text × Text)
  | q :: rest =>
    if q = 0x22 || q = 0x27 then
      let inside := rest.takeWhile (· ≠ q)
      if inside.length < rest.length then some (inside, rest.drop (inside.length + 1)) else none
    else none
  | [] => none

/-- The value behind the name of an attribute: an equals sign and a text in quotes, and what follows. -/
def valueStart? (t : Text) : Option (Text × Text) :=
  match t.dropWhile isWhite with
  | u :: rest => if u = 0x3D then quotedStart? (rest.dropWhile isWhite) else none
  | [] => none

/-- The value of the first attribute with a name, and the number of units before it. -/
def attribute? (name : String) : Text → Nat → Option (Text × Nat)
  | [], _ => none
  | u :: rest, i =>
    let found := if isWhite u then (behindWord? name rest).bind valueStart? else none
    match found with
    | some (value, behind) => some (value, i + (rest.length - behind.length) - value.length)
    | none => attribute? name rest (i + 1)

/-- The end of a tag stands somewhere in the text. -/
def closesTag (t : Text) : Bool := Text.occursIn (Text.ofString "/>") t

/-- The name of the tag in a comment, if it has one. -/
def tagName? (comment : Text) : Option String :=
  match (comment.drop 3).dropWhile isWhite with
  | open_ :: rest =>
    let name := rest.takeWhile fun u => !isWhite u
    let behind := rest.drop name.length
    if Text.ofString "///" ≠ comment.take 3 || open_ ≠ 0x3C || name.isEmpty || behind.isEmpty
      || !closesTag (behind.drop 1) then none
    else some (Text.toString (name.map lower))
  | [] => none

/-- What is read of a comment that starts at `start`: its reference, or what is wrong with it. -/
def ofComment (start : Nat) (comment : Text) : Option (Reference ⊕ Complaint) × List Complaint :=
  let value (name : String) : Option Text := (attribute? name comment 0).map (·.1)
  match tagName? comment with
  | some "reference" =>
    let preserve := value "preserve" = some (Text.ofString "true")
    let mode := (value "resolution-mode").map Text.toString
    if value "no-default-lib" = some (Text.ofString "true") then (some (.inl withoutLibrary), [])
    else match attribute? "types" comment 0, value "lib", value "path" with
      | some (name, offset), _, _ =>
        let wrong := match mode with
          | none | some "" | some "import" | some "require" => []
          | some _ => [Complaint.of (start + offset) .resolutionMode]
        (some (.inl (leads .types name (mode.filter fun m => m = "import" || m = "require") preserve)),
          wrong)
      | none, some name, _ => (some (.inl (leads .lib name none preserve)), [])
      | none, none, some name => (some (.inl (leads .path name none preserve)), [])
      | none, none, none => (some (.inr (.of start .invalidReference)), [])
  | some "amd-dependency" =>
    ((value "path").map fun path => .inl (dependency path (value "name")), [])
  | some "amd-module" => ((value "name").map fun name => .inl (moduleName name), [])
  | _ => (none, [])

/-! ## Writing a tag -/

/-- The comment in which a reference is written. -/
def text : Reference → Text
  | withoutLibrary => Text.ofString "/// <reference no-default-lib=\"true\"/>"
  | leads target name mode preserve =>
    Text.ofString ("/// <reference " ++ target.word ++ "=\"") ++ name ++ Text.ofString "\" "
      ++ Text.ofString ((mode.map fun m => "resolution-mode=\"" ++ m ++ "\" ").getD "")
      ++ Text.ofString (if preserve then "preserve=\"true\" " else "") ++ Text.ofString "/>"
  | dependency path name =>
    Text.ofString "/// <amd-dependency "
      ++ (match name with
        | some n => if n.isEmpty then [] else Text.ofString "name=\"" ++ n ++ Text.ofString "\" "
        | none => [])
      ++ Text.ofString "path=\"" ++ path ++ Text.ofString "\" />"
  | moduleName name => Text.ofString "/// <amd-module name=\"" ++ name ++ Text.ofString "\" />"

/-- References are written by kind: the libraries left out, the module, its dependencies, then paths, types
and libraries. -/
def rank : Reference → Nat
  | withoutLibrary => 0
  | moduleName _ => 1
  | dependency .. => 2
  | leads .path .. => 3
  | leads .types .. => 4
  | leads .lib .. => 5

/-- A comment is a tag that stands for a reference, whether it can be read or not. -/
def isTag (comment : Text) : Bool :=
  let spaced (t : Text) : Option Text := if t.head?.any isWhite then some (t.dropWhile isWhite) else none
  let starts (word : String) (t : Text) : Option Text :=
    let units := Text.ofString word
    if units.isPrefixOf t then some (t.drop units.length) else none
  let inside := (comment.drop 3).dropWhile isWhite
  let named (tag name : String) : Option (Text × Text) :=
    (((starts tag inside).bind spaced).bind (starts name)).bind valueStart?
  Text.ofString "///" = comment.take 3 &&
    ((["path", "types", "lib"].any fun name => (named "<reference" name).any fun (_, rest) => closesTag rest)
      || (named "<amd-dependency" "path").any (fun (_, rest) => closesTag rest)
      || ((starts "<amd-module" inside).bind spaced).any closesTag
      || (named "<reference" "no-default-lib").any fun (_, rest) =>
        (Text.ofString "/>").isPrefixOf (rest.dropWhile isWhite))

end Reference

namespace Source

/-- What the comments at the head of a file say, in their order. -/
def headTags (s : Source) : List (Nat × (Reference ⊕ Complaint) × List Complaint) :=
  ((s.leadingComments 0).filter (!·.block)).filterMap fun c =>
    match Reference.ofComment c.start (s.slice c.start c.stop) with
    | (some found, wrong) => some (c.start, found, wrong)
    | (none, _) => none

/-- The references of a file in the order in which they are written. Of several names of the module the last
one holds. -/
def references (s : Source) : List Reference :=
  let all := s.headTags.filterMap fun (_, found, _) => found.getLeft?
  let isName (r : Reference) : Bool := r.rank = 1
  let once (r : Reference) : Bool := r.rank = 0
  (all.find? once).toList ++ ((all.filter isName).getLast?).toList
    ++ (all.filter fun r => 2 ≤ r.rank).mergeSort fun a b => a.rank ≤ b.rank

/-- What is wrong with the references of a file. -/
def referenceComplaints (s : Source) : List Complaint :=
  let names := s.headTags.filter fun (_, found, _) => found.getLeft?.any fun r => r.rank = 1
  (s.headTags.flatMap fun (_, found, wrong) => found.getRight?.toList ++ wrong)
    ++ (names.drop 1).map fun (start, _) => .of start .severalModuleNames

end Source
end LintRepair.Syntax
