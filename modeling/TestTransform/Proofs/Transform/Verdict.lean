/-
The verdict of a transformer on a file.

Most of what a transformer does with a file depends on its name, its source and the
configuration only.  So two transformers come to the same verdict as soon as their compilers
do.
-/
import TestTransform.Proofs.Compiler.Verdict
import TestTransform.Transform.Transformer

namespace TestTransform

theorem FileKind.isDotted_of_ne_other {p : Path} (h : FileKind.ofPath p ≠ .other) :
    p.IsDotted := by
  refine Path.isDotted_of_extension? ?_
  cases hext : p.extension? with
  | some ext => rfl
  | none =>
    rw [FileKind.ofPath, hext] at h
    exact absurd rfl h

/-- Whether a file is given to the compiler: it is no declaration and not to be stringified, and
it is TypeScript, or JavaScript that may be compiled. -/
def ConfigSet.compiles (c : ConfigSet) (file : Path) : Bool :=
  !file.isDeclaration && !c.shouldStringify file && match FileKind.ofPath file with
    | .typeScript => true
    | .javaScript => c.allowsJs
    | .other => false

theorem ConfigSet.isDotted_of_compiles {c : ConfigSet} {file : Path}
    (h : c.compiles file = true) : file.IsDotted := by
  refine FileKind.isDotted_of_ne_other fun hkind => ?_
  rw [compiles, hkind, Bool.and_false] at h
  cases h

namespace TransformError

/-- What a caller can rely on of an error: the error of a configuration or a fallback as it
is, and the kind and the codes of an error of a compiler. -/
inductive Failure where
  | config (error : ConfigError)
  | compile (kind : CompileError.Kind) (codes : List Nat)
  | fallback (name message : Text)
  deriving DecidableEq, Repr

def failure : TransformError → Failure
  | config e => .config e
  | compile e => .compile e.kind e.codes
  | fallback name message => .fallback name message

/-- An outcome, of whose error only that is kept. -/
def verdict {α : Type} (outcome : Except TransformError α) : Except Failure α :=
  outcome.mapError failure

end TransformError

namespace Transformer

variable {t t' : Transformer} {w w' : World} {i i' : Nat} {source : Text} {file : Path}
  {options options' : TransformOptions}

open TransformError (verdict)

theorem handOn_congr (h : t.fallback = t'.fallback) (r : TransformedSource) :
    (t.handOn w file r).1 = (t'.handOn w' file r).1 := by
  rw [handOn, handOn, h]
  cases t'.fallback with
  | none => rfl
  | some f => rfl

theorem fallback_translate :
    (t.translate w i source file options).2.1.fallback = t.fallback := by
  rw [translate]
  dsimp only
  split
  · rfl
  · split
    · rfl
    · rfl
  · rfl

/-- The outcome of a compiler as that of a transformer. -/
def compiled : Except CompileError CompiledOutput → Except TransformError TransformedSource
  | .ok o => .ok { code := o.code, map := o.map }
  | .error e => .error (.compile e)

theorem verdict_compiled {x y : Except CompileError CompiledOutput}
    (h : CompileError.verdict x = CompileError.verdict y) :
    verdict (compiled x) = verdict (compiled y) := by
  cases x with
  | ok o =>
    cases y with
    | ok o' =>
      cases Except.ok.inj h
      rfl
    | error e' => cases h
  | error e =>
    cases y with
    | ok o' => cases h
    | error e' =>
      have hsame : (e.kind, e.codes) = (e'.kind, e'.codes) := Except.error.inj h
      obtain ⟨hkind, hcodes⟩ := Prod.mk.inj hsame
      show Except.error (TransformError.Failure.compile e.kind e.codes) =
        Except.error (TransformError.Failure.compile e'.kind e'.codes)
      rw [hkind, hcodes]

theorem verdict_translate
    (hjs : (t.compiler i).config.allowsJs = (t'.compiler i').config.allowsJs)
    (hdeclaration : file.isDeclaration = false)
    (hstringify : (t.compiler i).config.shouldStringify file = false)
    (hc : (t.compiler i).config.compiles file = true →
      CompileError.verdict ((t.compiler i).compileIn w source file options).1 =
        CompileError.verdict ((t'.compiler i').compileIn w' source file options').1) :
    verdict (t.translate w i source file options).1 =
      verdict (t'.translate w' i' source file options').1 := by
  rw [ConfigSet.compiles, hdeclaration, hstringify, hjs] at hc
  rw [translate, translate, hjs]
  dsimp only
  cases hkind : FileKind.ofPath file with
  | typeScript =>
    rw [hkind] at hc
    exact verdict_compiled (hc rfl)
  | javaScript =>
    rw [hkind] at hc
    dsimp only at hc ⊢
    by_cases hallowed : (t'.compiler i').config.allowsJs = true
    · rw [if_pos hallowed, if_pos hallowed]
      exact verdict_compiled (hc (by rw [hallowed]; rfl))
    · rw [if_neg hallowed, if_neg hallowed]
  | other => rfl

/-- Two transformers come to the same verdict on a file if they agree on which files to
stringify and whether to compile JavaScript, have the same fallback, and their compilers come
to the same verdict if the file is given to them. -/
theorem verdict_transform
    (hs : (t.compiler i).config.shouldStringify file = (t'.compiler i').config.shouldStringify file)
    (hjs : (t.compiler i).config.allowsJs = (t'.compiler i').config.allowsJs)
    (hf : t.fallback = t'.fallback)
    (hc : (t.compiler i).config.compiles file = true →
      CompileError.verdict ((t.compiler i).compileIn w source file options).1 =
        CompileError.verdict ((t'.compiler i').compileIn w' source file options').1) :
    verdict (t.transform w i source file options).1 =
      verdict (t'.transform w' i' source file options').1 := by
  have hl : (t.translate w i source file options).2.1.fallback = t.fallback := fallback_translate
  have hr : (t'.translate w' i' source file options').2.1.fallback = t'.fallback :=
    fallback_translate
  rw [transform, transform]
  dsimp only
  rw [hs]
  by_cases hd : file.isDeclaration = true
  · rw [if_pos hd, if_pos hd]
  rw [if_neg hd, if_neg hd]
  by_cases hstringify : (t'.compiler i').config.shouldStringify file = true
  · rw [if_pos hstringify, if_pos hstringify]
  rw [if_neg hstringify, if_neg hstringify]
  have htranslate := verdict_translate hjs (Bool.eq_false_iff.mpr hd)
    (by rw [hs]; exact Bool.eq_false_iff.mpr hstringify) hc
  generalize t.translate w i source file options = out at htranslate hl ⊢
  generalize t'.translate w' i' source file options' = out' at htranslate hr ⊢
  obtain ⟨outcome, t₁, w₁⟩ := out
  obtain ⟨outcome', t₂, w₂⟩ := out'
  dsimp only at htranslate hl hr ⊢
  cases outcome with
  | error e =>
    cases outcome' with
    | error e' => exact congrArg Except.error (Except.error.inj htranslate)
    | ok r' => cases htranslate
  | ok r =>
    cases outcome' with
    | error e' => cases htranslate
    | ok r' =>
      cases Except.ok.inj htranslate
      have hhand : (t₁.handOn w₁ file r).1 = (t₂.handOn w₂ file r).1 :=
        handOn_congr (hl.trans (hf.trans hr.symm)) r
      exact congrArg verdict hhand

end Transformer
end TestTransform
