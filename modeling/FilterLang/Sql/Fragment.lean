import FilterLang.Connector
import FilterLang.Sql.Quote

/-! Pieces of SQL. A template leaves slots for its values, and rendering fills them. -/
namespace FilterLang.Sql

/-- A piece of SQL with the values that its placeholders stand for. -/
structure Fragment where
  sql : Text
  args : List Value

namespace Fragment

def empty : Fragment := ⟨[], []⟩

/-- The fragment between parentheses. -/
def enclosed (f : Fragment) : Fragment := ⟨'(' :: f.sql ++ [')'], f.args⟩

/-- The fragment with a connector behind it, if there is one. -/
def linked (k : Option Connector) (f : Fragment) : Fragment :=
  match k with
  | none => f
  | some k => ⟨f.sql ++ ' ' :: k.sql, f.args⟩

/-- Appends a fragment after a space. Nothing is set apart from an empty text. -/
def push (f g : Fragment) : Fragment :=
  let space := if f.sql.isEmpty || g.sql.isEmpty then [] else [' ']
  ⟨f.sql ++ space ++ g.sql, f.args ++ g.args⟩

@[simp] theorem push_args (f g : Fragment) : (f.push g).args = f.args ++ g.args := rfl

@[simp] theorem empty_push (f : Fragment) : empty.push f = f := by
  simp [push, empty]

@[simp] theorem push_empty (f : Fragment) : f.push empty = f := by
  simp [push, empty]

theorem push_assoc (f g h : Fragment) : (f.push g).push h = f.push (g.push h) := by
  obtain ⟨fs, fa⟩ := f
  obtain ⟨gs, ga⟩ := g
  obtain ⟨hs, ha⟩ := h
  cases fs <;> cases gs <;> cases hs <;> simp [push]

end Fragment

/-- How values get into a statement. -/
inductive BindMode where
  /-- Written out in their place. -/
  | literal
  /-- Passed apart, with a numbered placeholder in their place. -/
  | placeholder
  deriving DecidableEq

inductive Piece where
  | text (s : Text)
  /-- A text that stands in the statement as a literal, however values are passed. -/
  | quoted (s : Text)
  | slot (v : Value)

abbrev Template := List Piece

/-- A placeholder. Its number is a machine word. -/
def placeholder (n : UInt64) : Text := '$' :: Text.ofNat n.toNat

namespace Template

/-- Fills the slots. Placeholders are numbered in order, after the `used` ones before them. -/
def render (quote : Quoting) (mode : BindMode) (used : UInt64) : Template → Fragment
  | [] => .empty
  | .text s :: rest =>
    let tail := render quote mode used rest
    ⟨s ++ tail.sql, tail.args⟩
  | .quoted s :: rest =>
    let tail := render quote mode used rest
    ⟨quote s ++ tail.sql, tail.args⟩
  | .slot v :: rest =>
    match mode with
    | .literal =>
      let tail := render quote mode used rest
      ⟨literal quote v ++ tail.sql, tail.args⟩
    | .placeholder =>
      let tail := render quote mode (used + 1) rest
      ⟨placeholder (used + 1) ++ tail.sql, v :: tail.args⟩

/-- What follows a template is numbered after the values that the template took. -/
theorem render_append (quote : Quoting) (mode : BindMode) (used : UInt64) (t u : Template) :
    render quote mode used (t ++ u) =
      let f := render quote mode used t
      let g := render quote mode (used + .ofNat f.args.length) u
      ⟨f.sql ++ g.sql, f.args ++ g.args⟩ := by
  induction t generalizing used with
  | nil => simp [render, Fragment.empty]
  | cons p t ih =>
    cases p with
    | text s => simp [render, ih]
    | quoted s => simp [render, ih]
    | slot v =>
      cases mode with
      | literal => simp [render, ih]
      | placeholder => simp [render, ih, UInt64.ofNat_add, UInt64.add_comm, UInt64.add_assoc]

end Template

end FilterLang.Sql
