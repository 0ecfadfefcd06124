import BookCompiler.Catalog.Basic
import BookCompiler.Catalog.Settings
import BookCompiler.Catalog.Shelf
import BookCompiler.Compile.Basic

namespace BookCompiler

namespace Catalog

def insertResult (c : Catalog) (report : CompileError → CatalogError) :
    Except CompileError Pipeline → Except CatalogError Catalog
  | .error e => .error (report e)
  | .ok p => c.insert p

def insertBook (options : Options) (source : String) (c : Catalog) : Except CatalogError Catalog :=
  c.insertResult .compilation (compile options source).result

def addFile (options : Options) (shelf : Shelf) (path : String) (c : Catalog) :
    Except CatalogError Catalog :=
  match shelf.read path with
  | .error fault => .error (.file path fault)
  | .ok source => c.insertResult (.book path) (compileFile options path source).result

def addBook (options : Options) (b : InlineBook) (c : Catalog) : Except CatalogError Catalog :=
  c.insertResult (.book b.name) (compile options b.content).result

/-- Compiles all books, files first, up to the first that fails. -/
def build (shelf : Shelf) (s : Settings) : Except CatalogError Catalog := do
  let c ← s.bookFiles.foldlM (fun c path => c.addFile s.compiler shelf path) {}
  s.books.foldlM (fun c b => c.addBook s.compiler b) c

end Catalog

end BookCompiler
