import TraceLint.Analysis.Basic

/-! The analysis that lays out the instructions of a class for others. -/
namespace TraceLint.Analysis

/-- Hands on an inspector of the class. It also runs on classes that were decoded only in part. -/
def inspection : Analysis where
  name := text "inspect"
  doc := text "optimize instruction traversal for later passes"
  run := some fun task => { output := .inspector (.ofClasses [task.cls]) }
  runDespiteErrors := true
  outputType := some .inspector

end TraceLint.Analysis
