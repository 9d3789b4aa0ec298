import CardFilter.CommandLine.Style
import CardFilter.FileTree
import CardFilter.JsonValue

/-!
# Replies

A command answers with what it prints, with what it says of failures, and with the files as it
leaves them.
-/

namespace CardFilter.CommandLine

/-- How a command ends. -/
inductive Ending
  /-- It succeeds. -/
  | success
  /-- It fails, and says why. -/
  | failure
  /-- It breaks off. -/
  | crash
  deriving DecidableEq, Repr

/-- The exit code. -/
def Ending.exitCode : Ending → Nat
  | success => 0
  | failure => 1
  | crash => 101

/-- **What a command answers.** -/
structure Reply where
  /-- How the command ends. -/
  ending : Ending
  /-- What is printed. -/
  output : String
  /-- What is said of failures. -/
  complaint : String
  /-- The files afterwards. -/
  tree : FileTree
  deriving Repr

namespace Reply

/-- The command succeeded and prints this. -/
def printed (tree : FileTree) (output : String) : Reply :=
  ⟨.success, output, "", tree⟩

/-- The command failed for this reason. -/
def failed (tree : FileTree) (reason : String) : Reply :=
  ⟨.failure, "", line ("error: " ++ reason), tree⟩

/-- The command broke off, with this message. -/
def broken (tree : FileTree) (message : String) : Reply :=
  ⟨.crash, "", line message, tree⟩

/-- The exit code. -/
def exitCode (r : Reply) : Nat :=
  r.ending.exitCode

end Reply

/-- A value printed as JSON. -/
def printedJson (v : JsonValue) : String :=
  line v.pretty

end CardFilter.CommandLine
