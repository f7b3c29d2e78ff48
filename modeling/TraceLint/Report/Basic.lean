import TraceLint.Analysis.Action

/-! What a report is made of: the findings of each analysis in order, and the failures. -/
namespace TraceLint.Report

open Analysis (Id Ended Failure)

/-- One analysis with its findings on all classes. -/
structure Section where
  analysis : Id
  name : Text
  sink : Sink := {}

structure Failed where
  name : Text
  cls : Text
  failure : Failure

/-- The findings of one root, added to the section of its analysis. -/
def addTo (catalog : Catalog) (root : Ended) : List Section → List Section
  | [] =>
    let fresh : Section :=
      { analysis := root.action.analysis, name := catalog.nameOf root.action.analysis }
    [{ fresh with sink := fresh.sink.add root.conclusion.findings }]
  | s :: rest =>
    if s.analysis = root.action.analysis then
      { s with sink := s.sink.add root.conclusion.findings } :: rest
    else s :: addTo catalog root rest

/-- One section per analysis, in the order of the roots. -/
def sections (catalog : Catalog) (roots : List Ended) : List Section :=
  roots.foldl (fun done root => addTo catalog root done) []

def failures (catalog : Catalog) (roots : List Ended) : List Failed :=
  roots.filterMap fun root => root.conclusion.failure.map fun failure =>
    ⟨catalog.nameOf root.action.analysis, root.cls, failure⟩

end TraceLint.Report
