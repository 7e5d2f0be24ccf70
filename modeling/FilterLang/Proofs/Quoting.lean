import FilterLang.Proofs.Literals
import FilterLang.Proofs.Sources

/-! What a where clause is made of. Text of a request gets into it between quotes only, and nothing
else in it was not fixed before the request came. -/
namespace FilterLang.Sql

open Node

variable {quote : Quoting} {escape : Char → Text} {C T : Text → Prop} {o : Operand} {p : Predicate}

/-- The words and marks that the generator itself writes. -/
def words : List Text :=
  ["where", "not", "is null", "is not null", "any(", "array[", "]", "->>", "lower(", "::text", "(",
    ")", ",", " "].map String.toList

/-- What a where clause is put together from. -/
inductive Token where
  | column (name : Text)
  | operator (op : Operator)
  | connector (k : Connector)
  | word (w : Text)
  | placeholder (n : UInt64)
  | number (n : Int)
  | flag (b : Bool)
  | literal (s : Text)

namespace Token

def sql (quote : Quoting) : Token → Text
  | column name => columnRef name
  | operator op => op.sql
  | connector k => k.sql
  | word w => w
  | placeholder n => Sql.placeholder n
  | number n => Text.ofInt n
  | flag b => Value.ofBool b
  | literal s => quote s

/-- How the database should take the token: only a literal is one. -/
def chunks (quote : Quoting) : Token → List Chunk
  | literal s => [.quoted (quote s)]
  | t => (t.sql quote).map .plain

/-- The token does not come from a request, or it is a number or a literal. -/
def Allowed (C T : Text → Prop) : Token → Prop
  | column name => C name
  | word w => w ∈ words
  | number n => Text.IsInt64 n
  | literal s => T s
  | operator _ | connector _ | placeholder _ | flag _ => True

def isLiteral : Token → Bool
  | literal _ => true
  | _ => false

/-- The token is one that the generator writes into every statement of its kind. -/
def isFixed : Token → Bool
  | operator _ | connector _ => true
  | word w => words.contains w
  | _ => false

/-- Fixed tokens, at least one, that do not end in what opens a literal. -/
def closing (quote : Quoting) (tokens : List Token) : Bool :=
  tokens.all isFixed && (tokens.flatMap (sql quote)).getLast?.any (· ≠ 'E')

theorem closing_iff {tokens : List Token} :
    closing quote tokens ↔ (∀ t ∈ tokens, t.isFixed) ∧
      ∃ c, (tokens.flatMap (sql quote)).getLast? = some c ∧ c ≠ 'E' := by
  simp [closing, Option.any_eq_true]

theorem allowed_of_isFixed {t : Token} (h : t.isFixed) : t.Allowed C T ∧ t.isLiteral = false := by
  cases t with
  | operator op => exact ⟨trivial, rfl⟩
  | connector k => exact ⟨trivial, rfl⟩
  | word w => exact ⟨List.contains_iff_mem.mp h, rfl⟩
  | _ => cases h

theorem chunks_of_not_literal {t : Token} (h : t.isLiteral = false) :
    t.chunks quote = (t.sql quote).map .plain := by
  cases t with
  | literal s => cases h
  | _ => rfl

/-- Only a literal brings a quote into the statement. -/
theorem not_quote {t : Token} (hC : ∀ name, C name → '\'' ∉ name) (ht : t.Allowed C T)
    (h : t.isLiteral = false) : '\'' ∉ t.sql quote := by
  cases t with
  | column name => simpa [sql, columnRef, tableAlias] using hC name ht
  | operator op =>
    have hop : '\'' ∉ op.sql := by cases op <;> decide
    exact hop
  | connector k =>
    have hk : '\'' ∉ k.sql := by cases k <;> decide
    exact hk
  | word w =>
    have hwords : ∀ w ∈ words, '\'' ∉ w := by decide
    exact hwords w ht
  | placeholder n =>
    intro hq
    have hdigit : Char.isDigit '\'' := Text.mem_ofNat (by simpa [sql, Sql.placeholder] using hq)
    exact absurd hdigit (by decide)
  | number n =>
    intro hq
    rcases Text.mem_ofInt hq with hq | hq <;> exact absurd hq (by decide)
  | flag b =>
    have hb : '\'' ∉ Value.ofBool b := by cases b <;> decide
    exact hb
  | literal s => cases h

end Token

/-- The text is made of allowed tokens, and the database takes it apart accordingly. -/
def Spelled (quote : Quoting) (C T : Text → Prop) (s : Text) : Prop :=
  ∃ tokens : List Token, s = tokens.flatMap (Token.sql quote) ∧ (∀ t ∈ tokens, t.Allowed C T) ∧
    Reads s (tokens.flatMap (Token.chunks quote))

variable {s t : Text}

theorem spelled_nil : Spelled quote C T [] := ⟨[], rfl, by simp, reads_nil⟩

theorem Spelled.append (hs : Spelled quote C T s) (ht : Spelled quote C T t) :
    Spelled quote C T (s ++ t) := by
  obtain ⟨as, rfl, ha, hra⟩ := hs
  obtain ⟨bs, rfl, hb, hrb⟩ := ht
  refine ⟨as ++ bs, by simp, List.forall_mem_append.mpr ⟨ha, hb⟩, ?_⟩
  rw [List.flatMap_append]
  exact hra.append hrb

theorem spelled_quote (hquote : quote.EscapesBy escape) (h : T s) :
    Spelled quote C T (quote s) :=
  ⟨[.literal s], by simp [Token.sql], by simpa [Token.Allowed] using h,
    by simpa [Token.chunks] using reads_quote hquote s⟩

/-- Tokens without a literal among them stay outside, if the last one does not end in what opens a
literal. -/
theorem spelled_plain {tokens : List Token} (hC : ∀ name, C name → '\'' ∉ name)
    (h : ∀ t ∈ tokens, t.Allowed C T ∧ t.isLiteral = false)
    (hE : (tokens.flatMap (Token.sql quote)).getLast? ≠ some 'E') :
    Spelled quote C T (tokens.flatMap (Token.sql quote)) := by
  refine ⟨tokens, rfl, fun t ht => (h t ht).1, ?_⟩
  have hchunks : tokens.flatMap (Token.chunks quote) =
      (tokens.flatMap (Token.sql quote)).map .plain := by
    rw [List.map_flatMap]
    exact List.flatMap_congr fun t ht => Token.chunks_of_not_literal (h t ht).2
  rw [hchunks]
  apply reads_plain _ hE
  intro hq
  obtain ⟨t, ht, hq⟩ := List.mem_flatMap.mp hq
  exact Token.not_quote hC (h t ht).1 (h t ht).2 hq

/-- However its slots are filled, the template is spelled in allowed tokens. -/
def Template.Spells (quote : Quoting) (C T : Text → Prop) (t : Template) : Prop :=
  ∀ bind used, Spelled quote C T (t.render quote bind used).sql

theorem Template.Spells.append {t u : Template} (ht : t.Spells quote C T)
    (hu : u.Spells quote C T) : Template.Spells quote C T (t ++ u) := by
  intro bind used
  rw [render_append]
  exact (ht bind used).append (hu bind _)

theorem Template.spells_text (h : Spelled quote C T s) : Template.Spells quote C T [.text s] := by
  intro bind used
  simpa [render, Fragment.empty] using h

section Fixed

variable (hquote : quote.EscapesBy escape) (hC : ∀ name, C name → '\'' ∉ name) {rest : List Token}
include hC

theorem spelled_fixed (tokens : List Token) (h : Token.closing quote tokens) :
    Spelled quote C T (tokens.flatMap (Token.sql quote)) := by
  obtain ⟨hfix, c, hc, hE⟩ := Token.closing_iff.mp h
  refine spelled_plain hC (fun t ht => Token.allowed_of_isFixed (hfix t ht)) ?_
  rw [hc]
  simpa using hE

/-- Behind the name of a column something has to follow that opens no literal. -/
theorem spelled_column {name : Text} (hname : C name) (h : Token.closing quote rest) :
    Spelled quote C T (columnRef name ++ rest.flatMap (Token.sql quote)) := by
  obtain ⟨hfix, c, hc, hE⟩ := Token.closing_iff.mp h
  have hall : ∀ t ∈ Token.column name :: rest, t.Allowed C T ∧ t.isLiteral = false :=
    List.forall_mem_cons.mpr ⟨⟨hname, rfl⟩, fun t ht => Token.allowed_of_isFixed (hfix t ht)⟩
  refine spelled_plain hC hall ?_
  rw [List.flatMap_cons, List.getLast?_append, hc]
  simpa using hE

theorem spelled_token {t : Token} (ht : t.Allowed C T) (hl : t.isLiteral = false)
    (hE : (t.sql quote).getLast? ≠ some 'E') : Spelled quote C T (t.sql quote) := by
  have hone : Spelled quote C T ([t].flatMap (Token.sql quote)) :=
    spelled_plain hC (by simpa using ⟨ht, hl⟩) (by simpa using hE)
  simpa using hone

include hquote

/-- An operand with fixed tokens behind it. -/
theorem Operand.spells_template (ho : o.Of C T) (h : Token.closing quote rest) :
    Template.Spells quote C T (o.template ++ [.text (rest.flatMap (Token.sql quote))]) := by
  intro bind used
  cases o with
  | column name =>
    simpa [Operand.template, Template.render, Fragment.empty] using spelled_column hC ho h
  | member name key =>
    have harrow : Token.closing quote [.word " ".toList, .word "->>".toList, .word " ".toList] :=
      rfl
    have hmember := ((spelled_column hC ho.1 harrow).append (spelled_quote hquote ho.2)).append
      (spelled_fixed hC _ h)
    simpa [Operand.template, Template.render, Fragment.empty, Token.sql] using hmember

/-- An operand as text in small letters. -/
theorem Operand.spells_lowered (ho : o.Of C T) : Template.Spells quote C T o.lowered := by
  have hlower : Spelled quote C T "lower(".toList :=
    spelled_fixed hC [.word "lower(".toList] rfl
  cases o with
  | column name =>
    have hcast : Token.closing quote [.word "::text".toList, .word ")".toList] := rfl
    have hcolumn := hlower.append (spelled_column hC ho hcast)
    apply Template.spells_text
    simpa [Token.sql] using hcolumn
  | member name key =>
    have hclose : Token.closing quote [.word ")".toList] := rfl
    exact (Template.spells_text hlower).append (Operand.spells_template hquote hC ho hclose)

theorem spelled_scalar {v : Value} (hv : v.ScalarOf T) : Spelled quote C T (literal quote v) := by
  cases v with
  | null | array _ | path _ _ => exact hv.elim
  | text s => exact spelled_quote hquote hv
  | bool b =>
    have hE : (Value.ofBool b).getLast? ≠ some 'E' := by cases b <;> decide
    exact spelled_token hC (t := .flag b) trivial rfl hE
  | int n =>
    refine spelled_token hC (t := .number n) hv rfl ?_
    intro hE
    rcases Text.mem_ofInt (List.mem_of_getLast? hE) with hE | hE <;> exact absurd hE (by decide)

theorem spelled_items {items : List Value} (h : ∀ v ∈ items, v.ScalarOf T) :
    Spelled quote C T ([','].intercalate (items.map (literal quote))) := by
  induction items with
  | nil => exact spelled_nil
  | cons v items ih =>
    obtain ⟨hv, hrest⟩ := List.forall_mem_cons.mp h
    cases items with
    | nil => simpa using spelled_scalar hquote hC hv
    | cons w items =>
      have hcomma : Spelled quote C T [','] := spelled_fixed hC [.word ",".toList] rfl
      rw [List.map_cons, List.map_cons, List.intercalate_cons_cons]
      exact ((spelled_scalar hquote hC hv).append hcomma).append (ih hrest)

theorem spelled_array {items : List Value} (h : ∀ v ∈ items, v.ScalarOf T) :
    Spelled quote C T (literal quote (.array items)) := by
  have hopen : Spelled quote C T arrayOpening := spelled_fixed hC [.word "array[".toList] rfl
  have hclose : Spelled quote C T [']'] := spelled_fixed hC [.word "]".toList] rfl
  rw [literal, literals_eq_map]
  exact (hopen.append (spelled_items hquote hC h)).append hclose

omit hquote in
theorem Template.spells_slot {v : Value} (h : Spelled quote C T (literal quote v)) :
    Template.Spells quote C T [.slot v] := by
  intro bind used
  cases bind with
  | literal => simpa [render, Fragment.empty] using h
  | placeholder =>
    have hmark : Spelled quote C T (placeholder (used + 1)) := by
      refine spelled_token hC (t := .placeholder (used + 1)) trivial rfl ?_
      intro hE
      rcases List.mem_cons.mp (List.mem_of_getLast? hE) with hE | hE
      · exact absurd hE (by decide)
      · exact absurd (Text.mem_ofNat hE) (by decide)
    simpa [render, Fragment.empty] using hmark

theorem Template.spells_array {items : List Value} (h : ∀ v ∈ items, v.ScalarOf T) :
    Template.Spells quote C T [.slot (.array items)] :=
  Template.spells_slot hC (spelled_array hquote hC h)

/-- An operand and an operator, up to the value behind them. -/
theorem Operand.spells_compared (ho : o.Of C T) (op : Operator) :
    Template.Spells quote C T (o.template ++ [.text (' ' :: op.sql ++ [' '])]) := by
  have hop : Token.closing quote [.word " ".toList, .operator op, .word " ".toList] := by
    cases op <;> rfl
  simpa [Token.sql] using Operand.spells_template hquote hC ho hop

theorem Predicate.spells_template (hp : p.Of C T) : p.template.Spells quote C T := by
  have hclose : Spelled quote C T [')'] := spelled_fixed hC [.word ")".toList] rfl
  have hlast := Template.spells_text hclose
  have hany : Token.closing quote [.word " ".toList, .operator .eq, .word " ".toList,
      .word "any(".toList] := rfl
  cases p with
  | isNull o =>
    have hnull : Token.closing quote [.word " ".toList, .word "is null".toList] := rfl
    exact Operand.spells_template hquote hC hp hnull
  | isNotNull o =>
    have hnull : Token.closing quote [.word " ".toList, .word "is not null".toList] := rfl
    exact Operand.spells_template hquote hC hp hnull
  | compare o op v =>
    have hvalue := Template.spells_slot hC (spelled_scalar hquote hC hp.2)
    simpa [template] using (Operand.spells_compared hquote hC hp.1 op).append hvalue
  | anyOf o items =>
    have hitems := Template.spells_array hquote hC hp.2
    have htest := (Operand.spells_template hquote hC hp.1 hany).append (hitems.append hlast)
    simpa [template, Token.sql, Operator.sql] using htest
  | noneOf o items =>
    have hnot : Spelled quote C T "not ".toList :=
      spelled_fixed hC [.word "not".toList, .word " ".toList] rfl
    have hitems := Template.spells_array hquote hC hp.2
    have htest := (Operand.spells_template hquote hC hp.1 hany).append (hitems.append hlast)
    simpa [template, Token.sql, Operator.sql] using (Template.spells_text hnot).append htest
  | overlaps o items =>
    have hitems := Template.spells_array hquote hC hp.2
    simpa [template] using (Operand.spells_compared hquote hC hp.1 .overlaps).append hitems
  | like o pattern =>
    have hlike : Token.closing quote [.word " ".toList, .operator .like, .word " ".toList] := rfl
    have hpattern := Template.spells_slot hC (v := .text pattern) (spelled_quote hquote hp.2)
    exact (Operand.spells_lowered hquote hC hp.1).append
      ((Template.spells_text (spelled_fixed hC _ hlike)).append hpattern)

namespace Clause

omit hquote in
theorem additive_spells : Additive (Template.Spells quote C T) where
  nil := fun _ _ => spelled_nil
  append := Template.Spells.append
  text := by
    intro s hs
    apply Template.spells_text
    have hword : Token.closing quote [.word s.toList] := by
      simp only [List.mem_cons, List.not_mem_nil, or_false] at hs
      rcases hs with rfl | rfl | rfl <;> rfl
    simpa [Token.sql] using spelled_fixed hC _ hword
  link := by
    intro k
    cases k with
    | none => exact fun _ _ => spelled_nil
    | some k =>
      apply Template.spells_text
      have hk : Token.closing quote [.word " ".toList, .connector k] := by cases k <;> rfl
      simpa [Token.sql] using spelled_fixed hC _ hk

theorem spells_whereTemplate {clause : Clause} (h : ∀ p ∈ leavesAll clause, p.Of C T) :
    clause.whereTemplate.Spells quote C T := by
  have hclause : (template clause).Spells quote C T :=
    (additive_spells hC).template clause fun p hp => p.spells_template hquote hC (h p hp)
  unfold whereTemplate
  split
  · exact fun _ _ => spelled_nil
  · have hwhere : Token.closing quote [.word "where".toList, .word " ".toList] := rfl
    exact (Template.spells_text (spelled_fixed hC _ hwhere)).append hclause

end Clause

end Fixed

/-- Whatever a request says, the database takes its where clause apart as it was put together: text
of the request stands in closed literals only, and any text can be quoted so. -/
theorem request_text_stays_quoted (quote : Quoting) (escape : Char → Text)
    (hquote : quote.EscapesBy escape) (settings : Settings) (r : Resolver)
    (hr : ∀ name column, r.resolve name = some column → '\'' ∉ column) :
    (∀ bind conditions search f, compileWhere quote settings r bind conditions search = .ok f →
      ∃ tokens : List Token, f.sql = tokens.flatMap (Token.sql quote) ∧
        chunks? f.sql = some (tokens.flatMap (Token.chunks quote)) ∧
        ∀ t ∈ tokens, t.Allowed (fun column => ∃ name, r.resolve name = some column)
          (RequestText settings conditions search)) ∧
    ∀ s, chunks? (quote s) = some [.quoted (quote s)] := by
  refine ⟨?_, fun s => (reads_quote hquote s).chunks?_eq⟩
  intro bind conditions search f hf
  rw [compileWhere_eq] at hf
  obtain ⟨clause, hclause, rfl⟩ := map_eq_ok_iff.mp hf
  have hC : ∀ column, (∃ name, r.resolve name = some column) → '\'' ∉ column := by
    rintro column ⟨name, hname⟩
    exact hr name column hname
  obtain ⟨tokens, hsql, hallowed, hreads⟩ :=
    Clause.spells_whereTemplate hquote hC (Clause.of_ofBlocks hclause) bind 0
  exact ⟨tokens, hsql, hreads.chunks?_eq, hallowed⟩

/-- Quotes and backslashes that pass the sanitizer, in a key, in the items of an array and in a
search, stay in their literals. -/
theorem request_text_stays_quoted_escaped :
    ∃ f, compileWhere .postgres ⟨48, ⟨['\'', '\\', ',', '^'], none⟩, .search⟩
        ⟨fun name => if name = ['a'] then some ['a'] else none, [['a']], ['a']⟩ .literal
        "a==k'^^x\\,'y".toList "a~~O'B".toList = .ok f ∧
      f.sql = "where (lower(q.a::text) like E'%o\\'b%') and ".toList ++
        "q.a ->> E'k\\'' = any(array[E'x\\\\',E'\\'y'])".toList ∧
      ∃ tokens : List Token, f.sql = tokens.flatMap (Token.sql .postgres) ∧
        chunks? f.sql = some (tokens.flatMap (Token.chunks .postgres)) ∧
        ∀ t ∈ tokens, t.Allowed
          (fun column => ∃ name : Text, (if name = ['a'] then some ['a'] else none) = some column)
          (RequestText ⟨48, ⟨['\'', '\\', ',', '^'], none⟩, .search⟩ "a==k'^^x\\,'y".toList
            "a~~O'B".toList) := by
  have hcolumns : ∀ name column : Text,
      (if name = ['a'] then some ['a'] else none) = some column → '\'' ∉ column := by
    intro name column h
    obtain ⟨-, hcolumn⟩ := Option.ite_none_right_eq_some.mp h
    cases hcolumn
    decide
  have hconditions : Block.parse .standard "a==k'^^x\\,'y".toList =
      .ok [.leaf ⟨['a'], .eq, "k'^^x\\,'y".toList⟩ none] := by cbv
  have hsearch : Block.parse .search "a~~O'B".toList =
      .ok [.leaf ⟨['a'], .like, "O'B".toList⟩ none] := by cbv
  refine ⟨⟨"where (lower(q.a::text) like E'%o\\'b%') and ".toList ++
    "q.a ->> E'k\\'' = any(array[E'x\\\\',E'\\'y'])".toList, []⟩, ?hf, rfl,
    (request_text_stays_quoted _ _ Quoting.postgres_escapesBy _ _ hcolumns).1 .literal _ _ _ ?hf⟩
  refine compileWhere_eq_ok_iff.mpr ⟨_, _,
    [.leaf (.like (.column ['a']) "%o'b%".toList) none],
    [.leaf (.anyOf (.member ['a'] "k'".toList) [.text "x\\".toList, .text "'y".toList]) none],
    hsearch, hconditions, rfl, rfl, ?_⟩
  cbv

end FilterLang.Sql
