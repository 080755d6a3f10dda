import SeriesBroker.Json.Token

/-! # JSON trees

    The second step of reading JSON: tokens become a tree. Like the first step it does not
    fail. A text that stops being JSON gives the tree of what stands before that place, with
    `Tree.broken` at the place itself.

    Key idea: whoever walks such a tree in document order meets a fault of the data exactly if
    it stands before the first fault of the text. So the order in which errors are reported
    follows from the shape of the tree alone.
-/

namespace SeriesBroker.Json

/-- The key of an object member; `none` when the key denotes no text or is missing. -/
abbrev Key := Option String

/-- A JSON value, complete up to the first fault of its text. -/
inductive Tree where
  | null
  | bool (value : Bool)
  /-- A number, unless its literal is past the range of floats. -/
  | number (value : Option Number)
  /-- A string, unless its literal denotes no text. -/
  | string (text : Option String)
  | array (items : List Tree)
  /-- Members in document order, repeated keys included. -/
  | object (members : List (Key × Tree))
  /-- Here the text stops being JSON. -/
  | broken

namespace Tree

instance : Inhabited Tree := ⟨.null⟩

/-! ## Building a tree -/

/-- A container that is not yet closed, its contents in reverse. -/
inductive Frame where
  | array (done : List Tree)
  /-- The key belongs to the member that is being read. -/
  | object (done : List (Key × Tree)) (key : Key)

/-- What has to come next inside the innermost container. -/
inductive Await where
  | value
  | valueOrEnd
  | key
  | keyOrEnd
  | colon
  | commaOrEnd
  deriving DecidableEq

/-- Add a finished value to a container. -/
def Frame.add (value : Tree) : Frame → Frame
  | .array done => .array (value :: done)
  | .object done key => .object ((key, value) :: done) none

/-- A container with what it holds. -/
def Frame.close : Frame → Tree
  | .array done => .array done.reverse
  | .object done _ => .object done.reverse

/-- Close all open containers around a value. -/
def closeAll (value : Tree) (stack : List Frame) : Tree :=
  stack.foldl (fun value frame => (frame.add value).close) value

/-- Build a tree from tokens, inside the containers that are open. Answers the tokens after the
    tree as well; there are none if the tree is broken. -/
def build (stack : List Frame) (await : Await) : List Token → Tree × List Token
  | [] => (closeAll .broken stack, [])
  | token :: rest =>
    let finish (value : Tree) : Tree × List Token :=
      match stack with
      | [] => (value, rest)
      | frame :: outer => build (frame.add value :: outer) .commaOrEnd rest
    let leave (frame : Frame) (outer : List Frame) : Tree × List Token :=
      match outer with
      | [] => (frame.close, rest)
      | around :: outer => build (around.add frame.close :: outer) .commaOrEnd rest
    let fail : Tree × List Token := (closeAll .broken stack, [])
    match await, token, stack with
    | .value, .null, _ | .valueOrEnd, .null, _ => finish .null
    | .value, .bool b, _ | .valueOrEnd, .bool b, _ => finish (.bool b)
    | .value, .number n, _ | .valueOrEnd, .number n, _ => finish (.number n)
    | .value, .string s, _ | .valueOrEnd, .string s, _ => finish (.string s)
    | .value, .openArray, _ | .valueOrEnd, .openArray, _ =>
      build (.array [] :: stack) .valueOrEnd rest
    | .value, .openObject, _ | .valueOrEnd, .openObject, _ =>
      build (.object [] none :: stack) .keyOrEnd rest
    | .valueOrEnd, .closeArray, frame :: outer => leave frame outer
    | .key, .string s, .object done _ :: outer | .keyOrEnd, .string s, .object done _ :: outer =>
      build (.object done s :: outer) .colon rest
    | .keyOrEnd, .closeObject, frame :: outer => leave frame outer
    | .colon, .colon, _ => build stack .value rest
    | .commaOrEnd, .comma, .array _ :: _ => build stack .value rest
    | .commaOrEnd, .comma, .object _ _ :: _ => build stack .key rest
    | .commaOrEnd, .closeArray, .array done :: outer => leave (.array done) outer
    | .commaOrEnd, .closeObject, .object done key :: outer => leave (.object done key) outer
    | _, _, _ => fail

/-- The tree of a text, and whether something follows it. -/
def read [FloatReader] (text : List Text.Symbol) : Tree × Bool :=
  let (tree, rest) := build [] .value (scan text)
  (tree, !rest.isEmpty)

/-! ## Faults of the text -/

mutual

/-- Whether the text of a tree is complete. Literals without a value do not count, so this is
    what is asked of a value that nobody uses. -/
def intact : Tree → Bool
  | .broken => false
  | .array items => intactItems items
  | .object members => intactMembers members
  | _ => true

def intactItems : List Tree → Bool
  | [] => true
  | item :: rest => item.intact && intactItems rest

def intactMembers : List (Key × Tree) → Bool
  | [] => true
  | (_, value) :: rest => value.intact && intactMembers rest

end

/-- How deep containers may be nested in a value that is used. -/
def nestingLimit : Nat := 127

mutual

/-- Whether a value that stands inside `level` containers can be used: it is complete, its
    literals have values, and it is not nested too deeply. -/
def usable (level : Nat) : Tree → Bool
  | .broken => false
  | .null => true
  | .bool _ => true
  | .number n => n.isSome
  | .string s => s.isSome
  | .array items => level < nestingLimit && usableItems (level + 1) items
  | .object members => level < nestingLimit && usableMembers (level + 1) members

def usableItems (level : Nat) : List Tree → Bool
  | [] => true
  | item :: rest => item.usable level && usableItems level rest

/-- Whether all members can be used, their keys included. -/
def usableMembers (level : Nat) : List (Key × Tree) → Bool
  | [] => true
  | (key, value) :: rest => key.isSome && value.usable level && usableMembers level rest

end

end Tree

end SeriesBroker.Json
