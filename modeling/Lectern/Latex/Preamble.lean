import Lectern.FrontMatter
import Lectern.Latex.Fragment
import Lectern.Settings.Basic

/-!
# Beginning and end of a document

**`preamble`** is what stands before the first line of the body, `documentEnd` what stands behind the last one.
-/

set_option autoImplicit false

namespace Lectern

/-- The packages that every document loads. -/
def basePackages : List Text :=
  ["\\usepackage\x7bgraphicx\x7d\n\\graphicspath\x7b\x7b.\x7d\x7d".toList, "\\usepackage[utf8]\x7binputenc\x7d".toList,
    "\\usepackage\x7btabularx\x7d".toList, "\\usepackage\x7bamsmath\x7d".toList]

/-- The title block, the document class, the packages and the beginning of the document. What the head of the notes does
not say is taken from the settings. -/
def preamble (settings : Settings) (front : FrontMatter) : Text :=
  let packages := basePackages ++ (settings.packages ++ front.packages).map (Fragment.command "usepackage")
  Fragment.command "title" (front.title?.getD settings.title) ++ ['\n'] ++
    Fragment.command "author" (front.author?.getD settings.author) ++ ['\n'] ++
    Fragment.command "date" (front.date?.getD settings.date) ++ "\n\n".toList ++
    "\\documentclass[".toList ++ settings.classOptions ++ "]\x7b".toList ++ settings.documentClass ++ "\x7d\n\n\n".toList ++
    packages.flatMap (· ++ "\n\n".toList) ++
    "\n\\begin\x7bdocument\x7d\n\n\n\\maketitle\n\n".toList

/-- The end of the document. -/
def documentEnd : Text := "\n\n\\end\x7bdocument\x7d".toList

end Lectern
