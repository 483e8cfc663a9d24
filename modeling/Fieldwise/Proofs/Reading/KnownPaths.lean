import Fieldwise.Conversion.Reading

/-!
The paths that are read from a catalog beforehand. Each is what its expression would be read as
anyway, and an expression that cannot be read is left out and fails when it is needed. So nothing
that is read from an object depends on which paths are known.
-/

namespace Fieldwise

/-- Each expression stands with the path that it is read as. -/
def Json.Path.Faithful (paths : Table String Json.Path) : Prop :=
  ∀ expression path, paths.get? expression = some path → Json.Path.parse expression = .ok path

namespace Json.Path.Faithful

variable {paths : Table String Json.Path}

theorem empty : Faithful [] := fun _ _ h => nomatch h

theorem put (h : Faithful paths) {expression : String} {path : Json.Path}
    (hparse : Json.Path.parse expression = .ok path) : Faithful (paths.put expression path) := by
  intro other found hfound
  by_cases hother : other = expression
  · subst hother
    rw [Table.get?_put_self] at hfound
    rw [hparse, Option.some.inj hfound]
  · rw [Table.get?_put_of_ne hother] at hfound
    exact h other found hfound

theorem addPath (h : Faithful paths) (f : Field) : Faithful (Catalog.paths.addPath paths f) := by
  unfold Catalog.paths.addPath
  split
  · split
    · next hparse => exact h.put hparse
    · exact h
  · exact h

theorem foldl_addPath (h : Faithful paths) (fields : List Field) :
    Faithful (fields.foldl Catalog.paths.addPath paths) := by
  induction fields generalizing paths with
  | nil => exact h
  | cons f rest ih => exact ih (h.addPath f)

theorem ofCatalog (c : Catalog) : Faithful c.paths := empty.foldl_addPath _

end Json.Path.Faithful

open Json.Path (Faithful)

namespace Engine

def withPaths (e : Engine) (paths : Table String Json.Path) : Engine := { e with paths }

section

variable {paths paths' : Table String Json.Path} (hpaths : Faithful paths)
  (hpaths' : Faithful paths')

include hpaths in
theorem path_withPaths (e : Engine) (expression : String) :
    (e.withPaths paths).path expression = Json.Path.parse expression := by
  unfold path withPaths
  cases hknown : paths.get? expression with
  | none => rfl
  | some path => exact (hpaths expression path hknown).symm

include hpaths hpaths'

theorem readPath_withPaths (e : Engine) (w : World) (h : Handle) (f : Field) :
    (e.withPaths paths).readPath w h f = (e.withPaths paths').readPath w h f := by
  simp only [readPath, path_withPaths hpaths, path_withPaths hpaths']
  rfl

theorem readBy_withPaths (e : Engine) (nested : Handle → Entity → Reading Record) (w : World)
    (h : Handle) (f : Field) (s : Strategy) :
    (e.withPaths paths).readBy nested w h f s = (e.withPaths paths').readBy nested w h f s := by
  cases s with
  | path => exact congrArg Reading.lift (readPath_withPaths hpaths hpaths' e w h f)
  | _ => rfl

end

/-- Reading with the paths of any catalog known comes to the same value or the same error as with
none known, for every field, and so to the same record. -/
theorem reading_withPaths (e : Engine) (c : Catalog) (w : World) (h : Handle) :
    (∀ f, (e.withPaths c.paths).readPath w h f = (e.withPaths []).readPath w h f) ∧
    ∀ fields,
      (e.withPaths c.paths).readRecord w h fields = (e.withPaths []).readRecord w h fields :=
  ⟨readPath_withPaths (.ofCatalog c) .empty e w h,
    readNested_congr (fun nested => readBy_withPaths (.ofCatalog c) .empty e nested w) rfl
      (depth w) h⟩

end Engine

end Fieldwise
