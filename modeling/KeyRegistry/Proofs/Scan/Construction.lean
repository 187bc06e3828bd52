import KeyRegistry.Proofs.Glob.Covering
import KeyRegistry.Proofs.Scan.Pruning

/-!
# Which configurations have a matcher

A matcher reads the include globs and the exclude globs, and also what is left of each exclude glob
when `/**` is cut off it. The first text that is no glob is blamed. So there is no matcher if an
include or an exclude is no glob, and then the first such text is named, the includes before the
excludes.

There is one more way to fail: an exclude whose slash before `**` is escaped is a glob, and what is
left without `/**` ends in the backslash of the escape and is none. Then a text is blamed that
stands nowhere in the configuration.

Main definitions:

* `Glob.isGlob` — whether a text is a glob
* `Glob.escapesCut` — whether a text ends in `/**` with an escaped slash

Main statements:

* `Glob.readOn_cut`, `Glob.read_cut` — what is left of a glob when `/**` is cut off it
* `Matcher.readGlobs_eq_error_iff` — the first text that is no glob is blamed
* `Matcher.new_iff` — a matcher reads three lists of globs, as if they were one
* `Matcher.new_exact` — when there is a matcher, and which text is blamed if there is none
-/

namespace KeyRegistry

namespace Glob

/-!
## A glob without what stands for everything below

A walk leaves out a directory if an exclude glob covers it, and to find such directories `/**` is
cut off the glob. What is left over is read as a glob of its own. It is one, whatever the syntax it
uses: a class or a group that is closed in the longer glob is closed before the cut, since `/**`
closes nothing. There is one exception. If the slash is escaped, then what is left ends in the
backslash of the escape, which is a fault there.
-/

open Draft

variable {d e : Draft} {text : List Char} {directory whole : String} {glob : Glob}

/-- What can be read with anything below behind it can be read alone, and leaves the same groups
open, unless its end is an escape of the slash. -/
theorem readOn_cut (h : readOn false d (text ++ anythingBelow) = .ok e) :
    (endsEscaping text = true ∧ readOn false d text = .error .danglingEscape) ∨
      (endsEscaping text = false ∧ ∃ e', readOn false d text = .ok e' ∧ e'.groups = e.groups) := by
  induction hLength : text.length using Nat.strong_induction_on generalizing d text with
  | h length ih =>
    cases text with
    | nil =>
      obtain ⟨other, hOther, hGroups, -⟩ := readOn_anythingBelow d
      rw [List.nil_append, hOther] at h
      cases h
      exact Or.inr ⟨rfl, d, by rw [readOn], hGroups.symm⟩
    | cons c text =>
      cases begins d c text with
      | same d' rest hStep =>
        rw [hStep.below] at h
        rw [hStep.plain, hStep.escapes]
        exact ih rest.length (by rw [← hLength]; exact hStep.shorter) h rfl
      | stars hText hFills =>
        -- the stars take the slash along, and no group is opened or closed
        have hPrevious : (d.cross false).previous = some '/' := rfl
        have hLonger : readOn false d (['*', '*'] ++ anythingBelow) =
            .ok ((d.cross false).cross true) :=
          (readOn_starsAndSlash hFills ['*', '*']).trans (readOn_stars (fills?_of_slash hPrevious))
        rw [hText] at h ⊢
        rw [hLonger] at h
        cases h
        exact Or.inr ⟨by decide, d.cross true, readOn_stars hFills, rfl⟩
      | escape hText =>
        rw [hText]
        exact Or.inl ⟨by decide, by rw [readOn]⟩
      | fault plain below hPlain hBelow =>
        rw [hBelow] at h
        cases h

/-- Cutting anything below off a glob leaves a glob, unless the slash was escaped. -/
theorem read_cut (hWhole : whole.toList = directory.toList ++ anythingBelow)
    (h : read false whole = .ok glob) :
    (endsEscaping directory.toList = true ∧ read false directory = .error .danglingEscape) ∨
      (endsEscaping directory.toList = false ∧ ∃ cut, read false directory = .ok cut) := by
  obtain ⟨e, hRead, hClosed, -⟩ := read_eq_ok_iff.mp h
  rw [hWhole] at hRead
  rcases readOn_cut hRead with ⟨hEscape, hFault⟩ | ⟨hPlain, e', hCut, hGroups⟩
  · refine Or.inl ⟨hEscape, ?_⟩
    rw [read, hFault]
    rfl
  · exact Or.inr ⟨hPlain, _, read_eq_ok_iff.mpr ⟨e', hCut, hGroups.trans hClosed, rfl⟩⟩

end Glob

variable {fs : FileSystem} {resolved : Resolved} {texts excludes : List String} {text cut : String}
  {fault : Glob.Fault} {e : ConfigError}

namespace Glob

/-- Whether a text is a glob. -/
def isGlob (text : String) : Bool :=
  (read false text).isOk

/-- Whether a text ends in `/**` with an escaped slash. -/
def escapesCut (text : String) : Bool :=
  (Matcher.directoryGlob? text).any fun cut => endsEscaping cut.toList

theorem isGlob_iff : isGlob text = true ↔ ∃ glob, read false text = .ok glob := by
  unfold isGlob
  cases read false text <;> simp [Except.isOk, Except.toBool]

theorem isGlob_of_fault (h : read false text = .error fault) : isGlob text = false := by
  rw [isGlob, h]
  rfl

/-- An escape needs a text in front of the slash, so nothing is said about `/**` alone. -/
theorem escapesCut_iff : escapesCut text = true ↔
    ∃ front, text.toList = front ++ anythingBelow ∧ endsEscaping front = true := by
  rw [escapesCut, Option.any_eq_true]
  constructor
  · rintro ⟨cut, hCut, hEscapes⟩
    exact ⟨cut.toList, (Matcher.directoryGlob?_eq_some.mp hCut).1, hEscapes⟩
  · rintro ⟨front, hText, hEscapes⟩
    refine ⟨String.ofList front, Matcher.directoryGlob?_eq_some.mpr ?_, ?_⟩
    · rw [String.toList_ofList]
      refine ⟨hText, ?_⟩
      rintro rfl
      cases hEscapes
    · rwa [String.toList_ofList]

end Glob

open Glob

namespace Matcher

/-! ## Lists of globs -/

/-- The first text that is no glob is blamed. -/
theorem readGlobs_eq_error_iff : readGlobs texts = .error e ↔ ∃ text fault,
    texts.find? (!isGlob ·) = some text ∧ Glob.read false text = .error fault ∧
      e = .invalidGlob text fault.message := by
  induction texts with
  | nil => simp [readGlobs]
  | cons first texts ih =>
    rw [readGlobs, List.find?_cons]
    cases hRead : Glob.read false first with
    | error fault =>
      have hNone : isGlob first = false := isGlob_of_fault hRead
      simp [hNone, hRead, eq_comm]
    | ok glob =>
      have hGlob : isGlob first = true := isGlob_iff.mpr ⟨glob, hRead⟩
      simp only [hGlob, Bool.not_true]
      rw [← ih]
      cases readGlobs texts <;> simp [Except.map]

theorem readGlobs_ok_iff :
    (∃ globs, readGlobs texts = .ok globs) ↔ texts.find? (!isGlob ·) = none := by
  constructor
  · rintro ⟨globs, hGlobs⟩
    rw [List.find?_eq_none]
    intro text hText
    rw [isGlob_iff.mpr (exists_of_readGlobs hGlobs hText)]
    simp
  · intro hNone
    cases hRead : readGlobs texts with
    | ok globs => exact ⟨globs, rfl⟩
    | error e =>
      obtain ⟨text, fault, hText, -⟩ := readGlobs_eq_error_iff.mp hRead
      rw [hNone] at hText
      cases hText

theorem readGlobs_append (texts more : List String) :
    readGlobs (texts ++ more) = do
      let globs ← readGlobs texts
      let others ← readGlobs more
      return globs ++ others := by
  induction texts with
  | nil =>
    cases hMore : readGlobs more <;> simp [readGlobs, hMore, bind, Except.bind, pure, Except.pure]
  | cons text texts ih =>
    rw [List.cons_append, readGlobs, readGlobs, ih]
    cases Glob.read false text with
    | error fault => rfl
    | ok glob => cases readGlobs texts <;> cases readGlobs more <;> rfl

/-- The texts that a matcher reads as globs, in order. -/
def globTexts (r : Resolved) : List String :=
  r.includes ++ r.excludes ++ r.excludes.filterMap directoryGlob?

/-- There is a matcher if all its texts are globs, and otherwise they are blamed in their order. -/
theorem new_iff (fs : FileSystem) (r : Resolved) :
    ((∃ matcher, new fs r = .ok matcher) ↔ ∃ globs, readGlobs (globTexts r) = .ok globs) ∧
      ∀ e, new fs r = .error e ↔ readGlobs (globTexts r) = .error e := by
  unfold new globTexts
  rw [readGlobs_append, readGlobs_append]
  -- each of the three lists may have a fault
  cases readGlobs r.includes with
  | error cause => simp [bind, Except.bind]
  | ok includes =>
    cases readGlobs r.excludes with
    | error cause => simp [bind, Except.bind]
    | ok excludes =>
      cases readGlobs (r.excludes.filterMap directoryGlob?) <;>
        simp [bind, Except.bind, pure, Except.pure]

/-! ## What is left of the excludes -/

/-- What is left of a glob is no glob if the slash that is cut off was escaped. -/
theorem read_directoryGlob? (hGlob : isGlob text = true) (hCut : directoryGlob? text = some cut) :
    isGlob cut = !escapesCut text ∧
      (escapesCut text = true → Glob.read false cut = .error .danglingEscape) := by
  obtain ⟨glob, hRead⟩ := isGlob_iff.mp hGlob
  rw [escapesCut, hCut, Option.any_some]
  rcases read_cut (directoryGlob?_eq_some.mp hCut).1 hRead with ⟨hEscapes, hFault⟩ | ⟨hPlain, hLeft⟩
  · rw [hEscapes, isGlob_of_fault hFault]
    exact ⟨rfl, fun _ => hFault⟩
  · rw [hPlain, isGlob_iff.mpr hLeft]
    exact ⟨rfl, fun h => by cases h⟩

/-- The first text that is left over and no glob comes from the first exclude that escapes the
slash. -/
theorem find?_directoryGlob? (hGlobs : ∀ exclude ∈ excludes, isGlob exclude = true) :
    (excludes.filterMap directoryGlob?).find? (!isGlob ·) =
      (excludes.find? escapesCut).bind directoryGlob? := by
  have hSame : ∀ exclude ∈ excludes,
      (directoryGlob? exclude).any (!isGlob ·) = escapesCut exclude := by
    intro exclude hMem
    cases hCut : directoryGlob? exclude with
    | none => rw [escapesCut, hCut, Option.any_none, Option.any_none]
    | some cut =>
      rw [Option.any_some, (read_directoryGlob? (hGlobs exclude hMem) hCut).1, Bool.not_not]
  rw [List.find?_filterMap, List.find?_congr hSame]

/-- A text that escapes the slash leaves what stands in front of it. -/
theorem directoryGlob?_of_escapesCut (hEscapes : escapesCut text = true) :
    directoryGlob? text = some cut ↔ text = cut ++ "/**" := by
  obtain ⟨front, hText, hEnd⟩ := escapesCut_iff.mp hEscapes
  have hSuffix : "/**".toList = anythingBelow := rfl
  rw [directoryGlob?_eq_some, ← String.toList_inj, String.toList_append, hSuffix]
  refine and_iff_left_of_imp fun hCut hNone => ?_
  rw [List.append_cancel_right (hText.symm.trans hCut), hNone] at hEnd
  cases hEnd

/-- What is left of the first exclude that escapes the slash is no glob. -/
theorem read_of_escapesCut (hGlobs : ∀ exclude ∈ excludes, isGlob exclude = true)
    (hFirst : excludes.find? escapesCut = some (cut ++ "/**")) :
    Glob.read false cut = .error .danglingEscape := by
  have hEscapes : escapesCut (cut ++ "/**") = true := List.find?_some hFirst
  have hLeft := (directoryGlob?_of_escapesCut hEscapes).mpr rfl
  exact (read_directoryGlob? (hGlobs _ (List.mem_of_find?_eq_some hFirst)) hLeft).2 hEscapes

/-- The first fault in what is left over, if there is none in the configuration. -/
theorem find?_globTexts (r : Resolved)
    (hGlobs : ∀ text ∈ r.includes ++ r.excludes, isGlob text = true) :
    ((globTexts r).find? (!isGlob ·) = none ↔ r.excludes.find? escapesCut = none) ∧
      ∀ cut, (globTexts r).find? (!isGlob ·) = some cut ↔
        r.excludes.find? escapesCut = some (cut ++ "/**") := by
  have hConfigured : (r.includes ++ r.excludes).find? (!isGlob ·) = none := by
    rw [List.find?_eq_none]
    intro text hMem
    rw [hGlobs text hMem]
    simp
  have hExcludes := fun exclude hMem => hGlobs exclude (List.mem_append_right r.includes hMem)
  rw [globTexts, List.find?_append, hConfigured, Option.none_or, find?_directoryGlob? hExcludes]
  -- an exclude that escapes the slash ends in what is cut off, so something is left of it
  cases hFirst : r.excludes.find? escapesCut with
  | none => simp
  | some exclude =>
    have hCut : ∀ cut, directoryGlob? exclude = some cut ↔ exclude = cut ++ "/**" := by
      intro cut
      exact directoryGlob?_of_escapesCut (List.find?_some hFirst)
    rw [Option.bind_some]
    refine ⟨?_, fun cut => by rw [hCut, Option.some.injEq]⟩
    obtain ⟨front, hText, -⟩ := escapesCut_iff.mp (List.find?_some hFirst)
    have hLeft := (hCut (String.ofList front)).mpr (by
      rw [← String.toList_inj, String.toList_append, String.toList_ofList]
      exact hText)
    simp [hLeft]

/-- There is a matcher if all includes and excludes are globs and no exclude escapes the slash
before its last two stars. Otherwise the first include or exclude that is no glob is blamed; and if
all are globs, then what is left of the first exclude that escapes the slash is blamed, which is
none of them. -/
theorem new_exact (fs : FileSystem) (r : Resolved) :
    ((∃ matcher, new fs r = .ok matcher) ↔
        (∀ text ∈ r.includes ++ r.excludes, isGlob text = true) ∧
          ∀ exclude ∈ r.excludes, escapesCut exclude = false) ∧
      ∀ e, new fs r = .error e ↔
        (∃ text fault, (r.includes ++ r.excludes).find? (!isGlob ·) = some text ∧
          Glob.read false text = .error fault ∧ e = .invalidGlob text fault.message) ∨
        ((∀ text ∈ r.includes ++ r.excludes, isGlob text = true) ∧
          ∃ cut, r.excludes.find? escapesCut = some (cut ++ "/**") ∧
            cut ∉ r.includes ++ r.excludes ∧
            e = .invalidGlob cut Glob.Fault.danglingEscape.message) := by
  obtain ⟨hOk, hError⟩ := new_iff fs r
  rw [hOk, readGlobs_ok_iff]
  simp only [hError, readGlobs_eq_error_iff]
  by_cases hGlobs : ∀ text ∈ r.includes ++ r.excludes, isGlob text = true
  · -- all that is configured is a glob, so only what is left over can be blamed
    obtain ⟨hNone, hSome⟩ := find?_globTexts r hGlobs
    have hNotListed : ∀ {text fault}, Glob.read false text = .error fault →
        text ∉ r.includes ++ r.excludes := by
      intro text fault hFault hMem
      have hGlob := hGlobs text hMem
      rw [isGlob_of_fault hFault] at hGlob
      cases hGlob
    have hDangling : ∀ {cut}, r.excludes.find? escapesCut = some (cut ++ "/**") →
        Glob.read false cut = .error .danglingEscape := fun hFirst =>
      read_of_escapesCut (fun exclude hMem => hGlobs exclude (List.mem_append_right _ hMem)) hFirst
    refine ⟨?_, fun e => ⟨?_, ?_⟩⟩
    · rw [hNone, and_iff_right hGlobs, List.find?_eq_none]
      simp only [Bool.not_eq_true]
    · rintro ⟨cut, fault, hFirst, hFault, rfl⟩
      have hExclude := (hSome cut).mp hFirst
      rw [hDangling hExclude] at hFault
      cases hFault
      exact Or.inr ⟨hGlobs, cut, hExclude, hNotListed (hDangling hExclude), rfl⟩
    · rintro (⟨text, fault, hFirst, hFault, -⟩ | ⟨-, cut, hExclude, -, rfl⟩)
      · exact absurd (List.mem_of_find?_eq_some hFirst) (hNotListed hFault)
      · exact ⟨cut, _, (hSome cut).mpr hExclude, hDangling hExclude, rfl⟩
  · -- a text of the configuration is blamed before anything that is left over is read
    obtain ⟨text, hFirst⟩ : ∃ text, (r.includes ++ r.excludes).find? (!isGlob ·) = some text := by
      rw [← Option.isSome_iff_exists, List.find?_isSome]
      simpa using hGlobs
    have hTexts : (globTexts r).find? (!isGlob ·) = some text := by
      rw [globTexts, List.find?_append, hFirst, Option.some_or]
    rw [hTexts, hFirst]
    exact ⟨iff_of_false (by simp) fun h => hGlobs h.1,
      fun e => (or_iff_left fun h => hGlobs h.1).symm⟩

/-- With an escaped slash in an exclude there is no matcher, and a text is blamed that is none of
the configuration's. -/
theorem new_exact_of_escaped :
    (∀ text ∈ (Hidden.resolvedWith ["src\\/**"] true).includes ++
        (Hidden.resolvedWith ["src\\/**"] true).excludes, isGlob text = true) ∧
      new Hidden.project (Hidden.resolvedWith ["src\\/**"] true) =
        .error (.invalidGlob "src\\" "dangling '\\'") := by
  have hTexts : (Hidden.resolvedWith ["src\\/**"] true).includes ++
      (Hidden.resolvedWith ["src\\/**"] true).excludes =
        "**/*.ts" :: "src\\/**" :: standardExcludes := by
    decide
  have hRead : ∃ globs, readGlobs ("**/*.ts" :: "src\\/**" :: standardExcludes) = .ok globs :=
    ⟨_, by cbv⟩
  have hGlobs : ∀ text ∈ "**/*.ts" :: "src\\/**" :: standardExcludes, isGlob text = true := by
    obtain ⟨globs, hGlobs⟩ := hRead
    exact fun text hMem => isGlob_iff.mpr (exists_of_readGlobs hGlobs hMem)
  rw [hTexts]
  refine ⟨hGlobs, ((new_exact _ _).2 _).mpr (Or.inr ?_)⟩
  rw [hTexts]
  exact ⟨hGlobs, "src\\", by decide, by decide, rfl⟩

end Matcher

end KeyRegistry
