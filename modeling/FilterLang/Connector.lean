import FilterLang.Text.Basic

/-! The two logical connectors. The one that stands first in a text wins; none binds tighter. -/
namespace FilterLang

inductive Connector where
  | and
  | or
  deriving DecidableEq

namespace Connector

/-- The spelling in the filter language. -/
def token : Connector → Text
  | and => ['*']
  | or => ['|', '|']

/-- The spelling in SQL. -/
def sql : Connector → Text
  | and => ['a', 'n', 'd']
  | or => ['o', 'r']

/-- The token of a connector, or nothing where there is none. -/
def text : Option Connector → Text
  | none => []
  | some k => k.token

/-- The connector that a text starts with, and what follows it. -/
def lead? : Text → Option (Connector × Text)
  | '*' :: rest => some (and, rest)
  | '|' :: '|' :: rest => some (or, rest)
  | _ => none

/-- Splits a text in front of its first connector. -/
def span : Text → Text × Text
  | [] => ([], [])
  | c :: cs =>
    if (lead? (c :: cs)).isSome then ([], c :: cs)
    else
      let (before, rest) := span cs
      (c :: before, rest)

/-- Whether a connector stands somewhere in the text. -/
def occursIn (s : Text) : Bool := !(span s).2.isEmpty

theorem append_of_lead? {s rest : Text} {k : Connector} (h : lead? s = some (k, rest)) :
    k.token ++ rest = s := by
  unfold lead? at h
  split at h <;> cases h <;> rfl

theorem span_append (s : Text) : (span s).1 ++ (span s).2 = s := by
  fun_induction span s <;> simp_all

end Connector

end FilterLang
