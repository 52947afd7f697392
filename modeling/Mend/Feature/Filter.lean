import Mend.Feature.Basic

/-!
# Filters

A filter accepts or refuses feature vectors by the keyword uses that they hold. Parts of a keyword filter
that are left open match everything.
-/

namespace Mend

open Keyword (Use Kind Context)

/-- What a keyword filter asks of a vector. -/
inductive FilterMode where
  /-- Some use matches. -/
  | include
  /-- No use matches. -/
  | exclude
  deriving DecidableEq, Repr, Inhabited

/-- A condition on keyword uses. An unknown role, context or change, an empty API or an empty keyword leaves
that part open. -/
structure KeywordFilter where
  mode : FilterMode
  kind : Kind
  context : Context
  change : Change
  api : String
  keyword : String
  deriving DecidableEq, Repr, Inhabited

namespace KeywordFilter

/-- The filter that leaves every part open. -/
def any (mode : FilterMode) : KeywordFilter := ⟨mode, .unknown, .unknown, .unknown, "", ""⟩

/-- The filter with the parts of a use. -/
def exact (mode : FilterMode) (u : Use) : KeywordFilter :=
  ⟨mode, u.kind, u.context, u.change, u.api, u.keyword⟩

/-- Whether a use fits every part that is not left open. -/
def fits (f : KeywordFilter) (u : Use) : Bool :=
  (f.kind == .unknown || f.kind == u.kind) &&
  (f.context == .unknown || f.context == u.context) &&
  (f.change == .unknown || f.change == u.change) &&
  (f.api.isEmpty || f.api == u.api) &&
  (f.keyword.isEmpty || f.keyword == u.keyword)

/-- Whether the filter lets a vector pass. -/
def accepts (f : KeywordFilter) (v : FeatureVector) : Bool :=
  match f.mode with
  | .include => v.uses.any f.fits
  | .exclude => !v.uses.any f.fits

end KeywordFilter

/-- A keyword filter, or filters that all have to accept. -/
inductive Filter where
  | keyword (f : KeywordFilter)
  | all (fs : List Filter)
  deriving Repr, Inhabited

namespace Filter

/-- Accepts every vector with at least one use. -/
def everything : Filter := .keyword (.any .include)

/-- Both filters. A conjunction on the left takes the right one as its last member. -/
def and : Filter → Filter → Filter
  | all fs, g => .all (fs ++ [g])
  | f, g => .all [f, g]

/-- Whether the filter lets a vector pass. -/
def accepts (f : Filter) (v : FeatureVector) : Bool :=
  match f with
  | keyword k => k.accepts v
  | all fs => acceptsAll fs v
where
  /-- Whether all members of a conjunction let a vector pass. -/
  acceptsAll : List Filter → FeatureVector → Bool
    | [], _ => true
    | f :: fs, v => f.accepts v && acceptsAll fs v

end Filter

end Mend
