import Mend.Cohort.Basic

/-!
# LaTeX table of cohorts

One row for every cohort, the one with the most instances first. Characters with a meaning in LaTeX are
written with a backslash before them.
-/

namespace Mend

namespace Cohort

/-- A character that LaTeX does not take as text. -/
def isLatexSpecial (c : Char) : Bool := ['_', '&', '%', '$', '#', '\x7b', '\x7d'].contains c

/-- A text with a backslash before every special character. -/
def escapeLatex (s : String) : String :=
  String.ofList (s.toList.flatMap fun c => if isLatexSpecial c then ['\\', c] else [c])

/-- Whether `c` may stand before `d`: more instances first, equal ones by the text of the use. -/
def precedes (c d : Cohort) : Bool :=
  d.total < c.total || (c.total == d.total && c.use.text ≤ d.use.text)

/-- The columns of a cohort. -/
def columns (c : Cohort) : List String :=
  [escapeLatex c.use.kind.text, escapeLatex c.use.context.text, escapeLatex c.use.change.text,
   escapeLatex c.use.keyword, toString c.clusters.length, toString c.total]

/-- The end of a row. -/
def rowEnd : String := " \\\\\n"

/-- The row of a cohort. -/
def row (c : Cohort) : String := " & ".intercalate c.columns ++ rowEnd

/-- The lines before the rows. -/
def tableHead : String :=
  "\\begin\x7btable\x7d\n\\centering\n\\begin\x7btabular\x7d\x7b|l|l|l|l|r|r|\x7d\n\\hline\n" ++
  "Type & Context & Change & Keyword & Clusters & Instances" ++ rowEnd ++ "\\hline\n"

/-- The lines after the rows. -/
def tableFoot : String := "\\hline\n\\end\x7btabular\x7d\n\\end\x7btable\x7d\n"

/-- The table of some cohorts. -/
def latexTable (cohorts : List Cohort) : String :=
  tableHead ++ String.join ((cohorts.mergeSort precedes).map row) ++ tableFoot

end Cohort

end Mend
