import Mend.Cohort.Basic
import Mend.DataSet.Arff

/-!
# Files of cohorts
-/

namespace Mend

/-- The name of the file of a cohort. -/
def Cohort.fileName (u : Keyword.Use) : String := u.fileStem ++ ".arff"

/-- The files of the cohorts that were clustered, with their content, in the order of the cohorts. A later
file replaces an earlier one of the same name. -/
def CohortReport.files (r : CohortReport) : List (String × String) :=
  r.subsets.map fun (u, subset) => (Cohort.fileName u, subset.arffFile (Cohort.fileName u))

end Mend
