import Rsolve.Core.Constraints

/-!
# Resolution requests

A solver subject is a package seen through a source scope. A request fixes the R version, lists the
root requirements, and may carry the identities of a previous lock and a publication cutoff.
-/
open Keyed

namespace Rsolve

/-- Days of a month of the proleptic Gregorian calendar. -/
def daysInMonth (year : Int) (month : Nat) : Nat :=
  if month = 2 then
    if year % 4 = 0 ∧ (year % 100 ≠ 0 ∨ year % 400 = 0) then 29 else 28
  else if month = 4 ∨ month = 6 ∨ month = 9 ∨ month = 11 then 30
  else 31

/-- `PublicationDate` — a calendar date with day precision. -/
structure PublicationDate where
  /-- The year. -/
  year : Int
  /-- The month, from one. -/
  month : Nat
  /-- The day of the month, from one. -/
  day : Nat
  /-- The date is on the calendar. -/
  valid : (-9999 ≤ year ∧ year ≤ 9999) ∧ (1 ≤ month ∧ month ≤ 12) ∧
    (1 ≤ day ∧ day ≤ daysInMonth year month)
deriving DecidableEq

/-- `Ord::cmp` — calendar order. -/
def PublicationDate.cmp : PublicationDate → PublicationDate → Ordering :=
  compareLex (compareOn PublicationDate.year)
    (compareLex (compareOn PublicationDate.month) (compareOn PublicationDate.day))

/-- Calendar order is lawful. -/
instance : Std.TransCmp PublicationDate.cmp :=
  inferInstanceAs (Std.TransCmp (compareLex (compareOn PublicationDate.year)
    (compareLex (compareOn PublicationDate.month) (compareOn PublicationDate.day))))

/-- `PublicationDate::as_str` — the spelling `%Y-%m-%d`. -/
def PublicationDate.text (date : PublicationDate) : String :=
  String.ofList ((if date.year < 0 then ['-'] else []) ++ Decimal.fixedDigits 4 date.year.natAbs ++
    '-' :: Decimal.fixedDigits 2 date.month ++ '-' :: Decimal.fixedDigits 2 date.day)

/-- A date is determined by its spelling. -/
theorem PublicationDate.text_injective {left right : PublicationDate}
    (equal : left.text = right.text) : left = right := by
  obtain ⟨leftYear, leftMonth, leftDay, leftValid⟩ := left
  obtain ⟨rightYear, rightMonth, rightDay, rightValid⟩ := right
  have bounded : ∀ {year : Int} {month day : Nat},
      ((-9999 ≤ year ∧ year ≤ 9999) ∧ (1 ≤ month ∧ month ≤ 12) ∧
        (1 ≤ day ∧ day ≤ daysInMonth year month)) →
      year.natAbs < Nat.pow 10 4 ∧ month < Nat.pow 10 2 ∧ day < Nat.pow 10 2 := by
    intro year month day valid
    have days : daysInMonth year month ≤ 31 := by
      unfold daysInMonth
      split_ifs <;> omega
    have hundred : Nat.pow 10 2 = 100 := rfl
    have thousands : Nat.pow 10 4 = 10000 := rfl
    omega
  obtain ⟨leftYearFits, leftMonthFits, leftDayFits⟩ := bounded leftValid
  obtain ⟨rightYearFits, rightMonthFits, rightDayFits⟩ := bounded rightValid
  have characters := String.ofList_injective equal
  simp only [List.append_assoc, List.cons_append] at characters
  have signs : (if leftYear < 0 then ['-'] else []).length =
      (if rightYear < 0 then ['-'] else []).length := by
    have lengths := congrArg List.length characters
    simp only [List.length_append, List.length_cons, Decimal.fixedDigits_length] at lengths
    omega
  obtain ⟨sign, characters⟩ := List.append_inj characters signs
  obtain ⟨years, characters⟩ := List.append_inj characters (by simp)
  obtain ⟨months, characters⟩ := List.append_inj (List.cons.inj characters).2 (by simp)
  have year := Decimal.fixedDigits_injective leftYearFits rightYearFits years
  have month := Decimal.fixedDigits_injective leftMonthFits rightMonthFits months
  have day := Decimal.fixedDigits_injective leftDayFits rightDayFits (List.cons.inj characters).2
  have negative : leftYear < 0 ↔ rightYear < 0 := by
    by_cases leftNegative : leftYear < 0 <;> by_cases rightNegative : rightYear < 0 <;>
      simp [leftNegative, rightNegative] at sign ⊢
  obtain rfl : leftYear = rightYear := by omega
  obtain rfl := month
  obtain rfl := day
  rfl

/-- `ReleasePublication` — the publication date of a release. -/
structure ReleasePublication where
  /-- The date. -/
  date : PublicationDate
deriving DecidableEq

/-- `PublicationCutoff` — an absolute publication-date cutoff. -/
structure PublicationCutoff where
  /-- The last admitted date. -/
  date : PublicationDate
deriving DecidableEq

/-- `SolverKey` — the solver-facing key of a package subject. -/
inductive SolverKey
  | registry (nspace : PackageNamespace) (name : PackageName)
  | bioconductor (nspace : PackageNamespace) (release : BioconductorRelease) (name : PackageName)
  | repository (repository : RepositoryId) (name : PackageName)
  | exact (identity : ReleaseIdentity)
  | installedName (name : PackageName)
  | r
deriving DecidableEq

/-- Keys are compared with their identities as identities. -/
instance : Representative SolverKey where
  representative
    | .exact identity => .exact (representative identity)
    | other => other

/-- `LockedIdentities` — previous identities by the subject they satisfied. -/
abbrev LockedIdentities := KeyedMap SolverKey ReleaseIdentity

/-- `ResolutionTarget` — the exact R version of a resolution. -/
structure ResolutionTarget where
  /-- The R version. -/
  rVersion : RPackageVersion
deriving DecidableEq

/-- Targets are compared as versions. -/
instance : Representative ResolutionTarget where
  representative target := ⟨representative target.rVersion⟩

/-- `ResolutionRequest` — the composed input of a resolver. -/
structure ResolutionRequest where
  /-- The root requirements. -/
  roots : List RootRequirement
  /-- The fixed target. -/
  target : ResolutionTarget
  /-- The root constraint on R. -/
  rRequirement : VersionConstraint
  /-- The identities of a previous lock. -/
  locked : LockedIdentities
  /-- The cutoff policy. -/
  publicationCutoff : Option PublicationCutoff

/-- `ResolutionRequest::exact_root_identity` — the identity an exact root fixes for a package. -/
def ResolutionRequest.exactRootIdentity (request : ResolutionRequest) (name : PackageName) :
    Option ReleaseIdentity :=
  request.roots.findSome? (fun root =>
    if root.package.name = name then
      match root.package.source with
      | .exact identity => some identity
      | _ => none
    else none)

/-- `subject_name` — the package a subject is about; the R subject is about none. -/
def SolverKey.subjectName : SolverKey → Option PackageName
  | .registry _ name => some name
  | .bioconductor _ _ name => some name
  | .repository _ name => some name
  | .installedName name => some name
  | .exact identity => some identity.name
  | .r => none

/-- The same subjects are about the same package. -/
theorem SolverKey.subjectName_congr {left right : SolverKey} (same : Same left right) :
    left.subjectName = right.subjectName := by
  cases left <;> cases right <;>
    simp_all [Same, representative, SolverKey.subjectName]

/-- The exact identity a request fixes for a package is an identity of that package. -/
theorem ResolutionRequest.exactRootIdentity_name {request : ResolutionRequest} {name : PackageName}
    {identity : ReleaseIdentity} (found : request.exactRootIdentity name = some identity) :
    identity.name = name := by
  obtain ⟨root, -, chosen⟩ := List.exists_of_findSome?_eq_some found
  split at chosen
  · next named =>
    split at chosen
    · next exactIdentity source =>
      obtain rfl : exactIdentity = identity := by simpa using chosen
      rw [root.package.exactNamed exactIdentity source, named]
    · simp at chosen
  · simp at chosen

end Rsolve
