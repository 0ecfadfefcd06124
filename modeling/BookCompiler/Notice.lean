namespace BookCompiler

/-- A remark that a book deserves although it is accepted. -/
inductive Notice where
  | deprecatedName (name line replacement : String)
  | personaMerged (name : String)
  | requirementRepeated (key scope : String)
  | commandIgnored (command pipeline : String)
  | sectionIgnored (keyword title : String)
  deriving Repr, DecidableEq

inductive Severity where
  | warning
  | error
  deriving Repr, DecidableEq

namespace Notice

def severity : Notice → Severity
  | commandIgnored _ _ => .error
  | sectionIgnored _ _ => .error
  | _ => .warning

def message : Notice → String
  | deprecatedName name line replacement =>
    s!"Command name {name} in \"{line}\" is deprecated, use {replacement} instead"
  | personaMerged name =>
    s!"Persona \"{name}\" is defined multiple times with different descriptions, merging them"
  | requirementRepeated key scope =>
    s!"MODEL {key} is defined twice with the same value in {scope}"
  | commandIgnored command pipeline =>
    s!"{command} command is not implemented yet, it is ignored in the pipeline \"{pipeline}\""
  | sectionIgnored keyword title =>
    s!"{keyword} sections are not implemented yet, section \"{title}\" is ignored"

end Notice

end BookCompiler
