/-! # Diagnostics

A diagnostic is a message about a line. A report collects diagnostics in the order in which they are
added.
-/

namespace Script

structure Diagnostic where
  line : Nat
  message : String
deriving DecidableEq

def Diagnostic.text (diagnostic : Diagnostic) : String :=
  "line " ++ toString diagnostic.line ++ ": " ++ diagnostic.message

structure Report where
  entries : Array Diagnostic
deriving DecidableEq

namespace Report

def empty : Report where
  entries := #[]

def add (report : Report) (diagnostic : Diagnostic) : Report where
  entries := report.entries.push diagnostic

def ofList (diagnostics : List Diagnostic) : Report :=
  diagnostics.foldl add empty

def toList (report : Report) : List Diagnostic :=
  report.entries.toList

def hasNoErrors (report : Report) : Bool :=
  report.entries.isEmpty

/-- One line for each diagnostic, also the last one, ended by a newline. -/
def text (report : Report) : String :=
  String.join (report.toList.map fun diagnostic => "ERROR: " ++ diagnostic.text ++ "\n")

@[simp] theorem toList_empty : empty.toList = [] := rfl

@[simp] theorem toList_add (report : Report) (diagnostic : Diagnostic) :
    (report.add diagnostic).toList = report.toList ++ [diagnostic] := by
  simp [add, toList]

end Report

end Script
