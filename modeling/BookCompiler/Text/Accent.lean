namespace BookCompiler.Text

/-- Accented Latin letters by base letter: the base, its small forms, its capital forms. -/
def accents : List (String × String × String) :=
  [("a", "áàâäãåāą", "ÁÀÂÄÃÅĀĄ\u212b"),
   ("c", "čćç", "ČĆÇ"),
   ("d", "ďđ", "ĎĐ"),
   ("e", "éèêëěēę", "ÉÈÊËĚĒĘ"),
   ("i", "íìîïī", "ÍÌÎÏĪ"),
   ("l", "ľĺł", "ĽĹŁ"),
   ("n", "ňñń", "ŇÑŃ"),
   ("o", "óòôöõøōő", "ÓÒÔÖÕØŌŐ"),
   ("r", "řŕ", "ŘŔ"),
   ("s", "šśş", "ŠŚŞ"),
   ("ss", "ß", "ẞ"),
   ("t", "ťţ", "ŤŢ"),
   ("u", "úùûüůūű", "ÚÙÛÜŮŪŰ"),
   ("y", "ýÿ", "ÝŸ"),
   ("z", "žźż", "ŽŹŻ")]

def foldAccent (c : Char) : List Char :=
  if c.toNat < 128 then [c]
  else
    match accents.find? fun (_, small, capital) =>
        small.toList.contains c || capital.toList.contains c with
    | some (base, small, _) =>
      if small.toList.contains c then base.toList else base.toList.map Char.toUpper
    | none => [c]

def foldAccents (s : List Char) : List Char := s.flatMap foldAccent

def removeAccents (s : String) : String := String.ofList (foldAccents s.toList)

end BookCompiler.Text
