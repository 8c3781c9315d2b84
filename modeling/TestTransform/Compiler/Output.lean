/-
Inlining a source map into compiled code.
-/
import TestTransform.Compiler.FileTable
import TestTransform.Json.Form
import TestTransform.Json.Printer
import TestTransform.Text.Utf8
import TestTransform.Text.Base64

namespace TestTransform
namespace CompiledOutput

/-- What a comment that names a source map begins with. -/
def marker : Text := "//# sourceMappingURL="

def dataPrefix : Text := "data:application/json;charset=utf-8;base64,"

/-- The map with `file` and `sources` pointed at a file and without `sourceRoot`.  What is
no JSON object is left as it is. -/
def rewriteMap (map : Text) (file : Path) : Text :=
  match Json.ofText? map with
  | some (.obj fields) =>
    let name := Text.replaceChar '\\' '/' file.text
    let fields := Assoc.insert Text.cmp "file" (.str name) fields
    let fields := Assoc.insert Text.cmp "sources" (.arr [.str name]) fields
    (Json.obj (Assoc.erase Text.cmp "sourceRoot" fields)).compact
  | _ => map

/-- The code in front of its last marker, if that begins the last line that is not
blank; otherwise all of it. -/
def body (code : Text) : Text :=
  match Text.splitAtLast? marker code with
  | some (before, comment) => if (Text.trimEnd comment).contains '\n' then code else before
  | none => code

/-- The comment that carries a map. -/
def comment (map : Text) : Text := marker ++ dataPrefix ++ Base64.encode map.utf8

/-- Puts the map behind the code, on a line of its own. -/
def inline (code map : Text) : Text :=
  if code == [] || code.getLast? == some '\n' then code ++ comment map
  else code ++ '\n' :: comment map

/-- The output for a file: its code with its map inlined, or the code alone. -/
def finalize (code : Text) (map : Option Text) (file : Path) : CompiledOutput :=
  match map with
  | none => ⟨code, none⟩
  | some m =>
    let m := rewriteMap m file
    ⟨inline (body code) m, some m⟩

end CompiledOutput
end TestTransform
