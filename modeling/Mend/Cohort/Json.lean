import Mend.Cohort.Basic
import Mend.DataSet.File
import Mend.Json.Basic

/-!
# Data set reports as JSON
-/

namespace Mend

/-- The object of a keyword use. -/
def Keyword.Use.toJson (u : Keyword.Use) : Json :=
  .object [("kind", .string u.kind.text), ("context", .string u.context.text),
    ("change", .string u.change.text), ("api", .string u.api), ("keyword", .string u.keyword)]

/-- The object of a report on the rows of a stored data set. -/
def LoadReport.toJson (r : LoadReport) : Json :=
  .object [("loaded", .nat r.loaded), ("filtered", .nat r.filtered),
    ("malformed", .nat r.malformed), ("duplicates", .nat r.duplicates)]

/-- The object of a frequency. -/
def Frequency.toJson (f : Frequency) : Json :=
  .object [("keyword", f.use.toJson), ("frequency", .nat f.count)]

/-- The object of the frequencies of a data set. -/
def DataSet.metricsJson (d : DataSet) : Json :=
  .object [("changed_keyword_frequency", .array (d.frequencies.map (·.toJson)))]

/-- The object of a cluster. -/
def Cluster.toJson (c : Cluster) : Json :=
  .object [("keyword", c.use.toJson), ("id", .integer c.id), ("instances", .nat c.instances)]

/-- The object of a cohort. -/
def Cohort.toJson (c : Cohort) : Json :=
  .object [("keyword", c.use.toJson), ("clusters", .array (c.clusters.map (·.toJson))),
    ("total_instances", .nat c.total)]

/-- The object of a report on cohorts. -/
def CohortReport.toJson (r : CohortReport) : Json :=
  .object [("ranked", .array (r.ranked.map (·.toJson))),
    ("cohorts", .array (r.cohorts.map (·.toJson))),
    ("skipped", .array (r.skipped.map fun (u, e) => .array [u.toJson, .string e.message]))]

end Mend
