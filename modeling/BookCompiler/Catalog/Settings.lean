import BookCompiler.Compile.Options

namespace BookCompiler

structure InlineBook where
  name : String
  content : String
  deriving Repr, DecidableEq

structure Settings where
  bookFiles : List String := []
  books : List InlineBook := []
  logLevel : String := "info"
  tracing : Bool := true
  compiler : Options := {}
  deriving Repr, DecidableEq

namespace InlineBook

def toJson (b : InlineBook) : Json := .obj [("name", .str b.name), ("content", .str b.content)]

def read (scalars : Json.Scalars) (x : Json) : Option InlineBook := do
  let m ← scalars.record ["name", "content"] x
  let name ← Json.required m "name" scalars.text
  let content ← Json.required m "content" scalars.text
  some { name, content }

end InlineBook

namespace Settings

def toJson (s : Settings) : Json :=
  .obj
    [("book_files", .ofStrings s.bookFiles),
     ("book_contents", .arr (s.books.map InlineBook.toJson)),
     ("log_level", .str s.logLevel),
     ("enable_tracing", .bool s.tracing),
     ("compiler", s.compiler.toJson)]

def read (scalars : Json.Scalars) (x : Json) : Option Settings := do
  let m ← scalars.record
    ["book_files", "book_contents", "log_level", "enable_tracing", "compiler"] x
  let bookFiles ← Json.orElse m "book_files" [] (Json.list? scalars.text)
  let books ← Json.orElse m "book_contents" [] (Json.list? (InlineBook.read scalars))
  let logLevel ← Json.orElse m "log_level" "info" scalars.text
  let tracing ← Json.orElse m "enable_tracing" true scalars.flag
  let compiler ← Json.orElse m "compiler" {} (Options.read scalars)
  some { bookFiles, books, logLevel, tracing, compiler }

def ofJson? (x : Json) : Option Settings := read .strict x

end Settings

end BookCompiler
