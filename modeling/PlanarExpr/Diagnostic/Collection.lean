import PlanarExpr.Diagnostic

namespace PlanarExpr

/-!
# Collected diagnostics

Diagnostics are kept in order. Only errors count towards the limit at which a
stage gives up.
-/

/-- How many errors a stage reports before it gives up, unless told otherwise. -/
def defaultErrorLimit : Int := 20

/-- Diagnostics in the order in which they were found. -/
structure DiagnosticCollection where
  diagnostics : List Diagnostic
  /-- The number of errors at which to give up. -/
  errorLimit : Int

namespace DiagnosticCollection

/-- A collection without diagnostics. -/
def empty (errorLimit : Int) : DiagnosticCollection :=
  { diagnostics := [], errorLimit := errorLimit }

/-- One diagnostic more. -/
def add
    (collection : DiagnosticCollection)
    (diagnostic : Diagnostic) :
    DiagnosticCollection :=
  { collection with diagnostics := collection.diagnostics ++ [diagnostic] }

/-- How many errors there are; diagnostics that are less severe do not count. -/
def errorCount (collection : DiagnosticCollection) : Nat :=
  collection.diagnostics.countP fun diagnostic => diagnostic.severity = .error

/-- Whether there is an error. -/
def hasErrors (collection : DiagnosticCollection) : Bool :=
  0 < collection.errorCount

/-- Whether as many errors have been found as are looked for. -/
def shouldStop (collection : DiagnosticCollection) : Bool :=
  collection.errorLimit ≤ collection.errorCount

end DiagnosticCollection

end PlanarExpr
