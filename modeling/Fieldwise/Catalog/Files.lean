import Fieldwise.Catalog.Document
import Fieldwise.FileTree
import Fieldwise.Settings

/-!
Catalogs and settings in files. A directory stands for all catalog files in it, at any depth; their
projections make one catalog, in the order of the names of the files.
-/

namespace Fieldwise

namespace Catalog

def isCatalogPath (path : String) : Bool := extension? path == some CatalogDocument.extension

def readProjections (t : FileTree) (path : String) : Except Error (List Projection) := do
  if !t.doesExist path then throw (.fileRead path .missing)
  match CatalogDocument.projectionsOfText (← t.read path) with
  | .error .invalidJson => throw (.fileRead path .notCatalog)
  | result => result

def ofFile (t : FileTree) (path : String) : Except Error Catalog := do
  ofProjections (← readProjections t path)

def ofDirectory (t : FileTree) (path : String) : Except Error Catalog := do
  if !t.isDirectory path then throw (.fileRead path .notDirectory)
  let files := (t.filesIn path).map (joinPath path)
  let projections ← (files.filter isCatalogPath).mapM (readProjections t)
  ofProjections projections.flatten

def ofPath (t : FileTree) (path : String) : Except Error Catalog :=
  if t.isDirectory path then ofDirectory t path else ofFile t path

def save (c : Catalog) (t : FileTree) (path : String) : FileTree × Except Error Unit :=
  t.store path c.text

end Catalog

def Settings.ofFile (t : FileTree) (path : String) : Except Error Settings := do
  ofText (← t.read path)

def CatalogDocument.ofFile (t : FileTree) (path : String) : Except Error CatalogDocument := do
  ofText (← t.read path)

end Fieldwise
