import TagPress.Fault

/-!
# Open blocks

Block tags push a frame and closing tags remove frames. A frame remembers whether caching was off
when its block was opened, and the line of the tag that opened it. The innermost frame comes first.
-/

namespace TagPress

/-- An open block. -/
structure Frame where
  /-- The family of the tag that opened it. -/
  family : String
  /-- Whether caching was off outside. -/
  nocache : Bool
  /-- The line of the tag that opened it. -/
  line : Option Nat
  deriving DecidableEq

/-- The open blocks, innermost first. -/
structure ScopeStack where
  /-- The frames, innermost first. -/
  frames : List Frame := []
  deriving DecidableEq

/-- What closing a run of frames gives. -/
structure Closed where
  /-- The frames that stay open. -/
  remaining : ScopeStack
  /-- How many frames were closed. -/
  count : Nat
  /-- Whether one of them was opened while caching was off. -/
  nocache : Bool
  deriving DecidableEq

namespace ScopeStack

/-- The innermost frame. -/
def top? (s : ScopeStack) : Option Frame :=
  s.frames.head?

/-- The number of open blocks. -/
def depth (s : ScopeStack) : Nat :=
  s.frames.length

/-- Opens a block. -/
def push (s : ScopeStack) (frame : Frame) : ScopeStack :=
  ⟨frame :: s.frames⟩

/-- Checks that the innermost frame is of one of the expected families. -/
def checkTop (s : ScopeStack) (tag : String) (expected : List String) : Except Fault Unit :=
  match s.frames with
  | [] => .error (.unbalanced tag none)
  | frame :: _ =>
    if expected.contains frame.family then .ok ()
    else .error (.unbalanced tag (some frame.family))

/-- Closes every frame down to the first one of another family; there has to be one to close. -/
def close (s : ScopeStack) (tag : String) (expected : List String) : Except Fault Closed :=
  match s.checkTop tag expected with
  | .error fault => .error fault
  | .ok () =>
    -- Conditionals that stand directly inside one another make up one run.
    let run := s.frames.takeWhile fun frame => expected.contains frame.family
    .ok ⟨⟨s.frames.dropWhile fun frame => expected.contains frame.family⟩, run.length,
      run.any (·.nocache)⟩

/-- Closes the innermost frame, which has to be of one of the expected families. -/
def pop (s : ScopeStack) (tag : String) (expected : List String) :
    Except Fault (Frame × ScopeStack) :=
  match s.frames with
  | [] => .error (.unbalanced tag none)
  | frame :: rest =>
    if expected.contains frame.family then .ok (frame, ⟨rest⟩)
    else .error (.unbalanced tag (some frame.family))

/-- Puts a frame of another family in the place of the innermost one. The new frame also remembers
what the old one remembered about caching. -/
def replaceTop (s : ScopeStack) (tag : String) (expected : List String) (frame : Frame) :
    Except Fault ScopeStack :=
  match s.pop tag expected with
  | .error fault => .error fault
  | .ok (old, rest) => .ok (rest.push { frame with nocache := old.nocache || frame.nocache })

/-- Checks that no block is open; the error carries the line of the innermost one. -/
def ensureEmpty (s : ScopeStack) : Except CompileError Unit :=
  match s.frames with
  | [] => .ok ()
  | frame :: _ => .error { fault := .unclosedTag frame.family, line := frame.line }

end ScopeStack

end TagPress
