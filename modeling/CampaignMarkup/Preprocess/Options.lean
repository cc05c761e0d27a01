import CampaignMarkup.Directive.Version
import CampaignMarkup.Path.Basic

/-! # Options of a run -/
namespace CampaignMarkup

/-- What becomes of a call that names neither a macro nor a place that exists. -/
inductive UndefinedMacroPolicy where
  | error
  /-- The call is written as it stands, with a warning. -/
  | passthrough
deriving DecidableEq, Repr, Inhabited

structure Options where
  /-- How deep expansions and inclusions may nest. -/
  maxDepth : Nat := 100
  undefinedMacro : UndefinedMacroPolicy := .error
  /-- What `#ifver` without a macro compares with. -/
  referenceVersion : Version := ⟨[1, 18, 0]⟩
  /-- Extensions of the files that are read when a directory is included; none means all. -/
  includeExtensions : List String := ["cfg"]
  extractRecords : Bool := true
deriving DecidableEq, Repr, Inhabited

/-- Whether a file has one of the extensions, in any case; no extensions at all admit every file. -/
def hasExtension (extensions : List String) (file : Path) : Bool :=
  extensions.isEmpty ||
    match file.extension? with
    | some extension => extensions.any (·.toLower = extension.toLower)
    | none => false

end CampaignMarkup
