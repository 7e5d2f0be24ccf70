import FilterLang.Sql.Quote

/-! Statements as the database takes them apart: text in literals, and all that stands outside. A
quoted text is one literal, whatever is in it. -/
namespace FilterLang.Sql

/-- A character outside literals, or a literal with its quotes. -/
inductive Chunk where
  | plain (c : Char)
  | quoted (raw : Text)

/-- Where the reading of a statement stands. Inside a literal it knows whether a backslash takes the
next character along, and what was read since the literal opened. -/
inductive ReadPlace where
  | outside
  | inside (escapes : Bool) (raw : Text)

/-- Reads a statement from left to right. One that ends inside a literal is none. -/
def readFrom : ReadPlace → Text → Option (List Chunk)
  | .outside, [] => some []
  | .inside _ _, [] => none
  | .outside, '\'' :: rest => readFrom (.inside false ['\'']) rest
  | .outside, 'E' :: '\'' :: rest => readFrom (.inside true ['E', '\'']) rest
  | .outside, c :: rest => (readFrom .outside rest).map (.plain c :: ·)
  | .inside _ raw, '\'' :: rest => (readFrom .outside rest).map (.quoted (raw ++ ['\'']) :: ·)
  | .inside true raw, '\\' :: c :: rest => readFrom (.inside true (raw ++ ['\\', c])) rest
  | .inside escapes raw, c :: rest => readFrom (.inside escapes (raw ++ [c])) rest

def chunks? (sql : Text) : Option (List Chunk) := readFrom .outside sql

/-- The text is taken apart in this way, whatever follows it. -/
def Reads (s : Text) (chunks : List Chunk) : Prop :=
  ∀ rest, readFrom .outside (s ++ rest) = (readFrom .outside rest).map (chunks ++ ·)

variable {s t : Text} {as bs : List Chunk}

theorem reads_nil : Reads [] [] := by
  intro rest
  simp

theorem Reads.append (hs : Reads s as) (ht : Reads t bs) : Reads (s ++ t) (as ++ bs) := by
  intro rest
  rw [List.append_assoc, hs, ht, Option.map_map]
  simp [Function.comp_def]

theorem Reads.chunks?_eq (h : Reads s as) : chunks? s = some as := by
  have hend := h []
  simpa [chunks?, readFrom] using hend

/-- Text without a quote stays outside, if it does not end in what opens a literal. -/
theorem reads_plain (hq : '\'' ∉ s) (he : s.getLast? ≠ some 'E') : Reads s (s.map .plain) := by
  induction s with
  | nil => exact reads_nil
  | cons c s ih =>
    intro rest
    obtain ⟨hc, hs⟩ : '\'' ≠ c ∧ '\'' ∉ s := by simpa using hq
    have hplain : readFrom .outside (c :: (s ++ rest)) =
        (readFrom .outside (s ++ rest)).map (.plain c :: ·) := by
      cases s with
      | nil =>
        have hE : c ≠ 'E' := by simpa using he
        rw [readFrom]
        · exact fun h => hc h.symm
        · rintro t rfl
          exact absurd rfl hE
      | cons d s =>
        have hd : '\'' ≠ d := by
          rintro rfl
          exact hs List.mem_cons_self
        rw [readFrom]
        · exact fun h => hc h.symm
        · rintro t rfl h
          exact hd (List.cons.inj h).1.symm
    have hrest : Reads s (s.map .plain) := by
      apply ih hs
      cases s with
      | nil => simp
      | cons d s => simpa using he
    rw [List.cons_append, hplain, hrest rest, Option.map_map]
    rfl

theorem readFrom_inside_plain (hq : '\'' ∉ s) (raw rest : Text) :
    readFrom (.inside false raw) (s ++ '\'' :: rest) =
      (readFrom .outside rest).map (.quoted (raw ++ s ++ ['\'']) :: ·) := by
  induction s generalizing raw with
  | nil => simp [readFrom]
  | cons c s ih =>
    obtain ⟨hc, hs⟩ : '\'' ≠ c ∧ '\'' ∉ s := by simpa using hq
    have hstep : readFrom (.inside false raw) (c :: (s ++ '\'' :: rest)) =
        readFrom (.inside false (raw ++ [c])) (s ++ '\'' :: rest) := by
      rw [readFrom]
      · exact fun h => hc h.symm
      · simp
    rw [List.cons_append, hstep, ih hs]
    simp

section Quote

variable {quote : Quoting} {escape : Char → Text} (hquote : quote.EscapesBy escape)
include hquote

theorem readFrom_inside_escape (s raw rest : Text) :
    readFrom (.inside true raw) (s.flatMap escape ++ '\'' :: rest) =
      (readFrom .outside rest).map (.quoted (raw ++ s.flatMap escape ++ ['\'']) :: ·) := by
  induction s generalizing raw with
  | nil => simp [readFrom]
  | cons c s ih =>
    rw [List.flatMap_cons]
    rcases hquote.char c with ⟨d, hd⟩ | ⟨hself, hb, hq⟩
    · rw [hd]
      simp [readFrom, ih]
    · rw [hself]
      have hstep : readFrom (.inside true raw) (c :: (s.flatMap escape ++ '\'' :: rest)) =
          readFrom (.inside true (raw ++ [c])) (s.flatMap escape ++ '\'' :: rest) := by
        rw [readFrom]
        · exact hq
        · exact fun _ _ _ h => absurd h hb
      simp only [List.cons_append, List.nil_append, hstep, ih]
      simp

/-- Without a backslash nothing was escaped, so there is no quote either. -/
theorem not_quote_of_not_escaped (h : '\\' ∉ s.flatMap escape) : '\'' ∉ s.flatMap escape := by
  intro hm
  obtain ⟨c, hc, hq⟩ := List.mem_flatMap.mp hm
  rcases hquote.char c with ⟨d, hd⟩ | ⟨hself, -, hne⟩
  · exact h (List.mem_flatMap.mpr ⟨c, hc, by simp [hd]⟩)
  · rw [hself, List.mem_singleton] at hq
    exact hne hq.symm

/-- A quoted text opens one literal and closes it. -/
theorem reads_quote (s : Text) : Reads (quote s) [.quoted (quote s)] := by
  intro rest
  by_cases hb : '\\' ∈ s.flatMap escape
  · rw [hquote.marked s hb]
    simp [readFrom, readFrom_inside_escape hquote]
  · rw [hquote.plain s hb]
    simp [readFrom, readFrom_inside_plain (not_quote_of_not_escaped hquote hb)]

end Quote

end FilterLang.Sql
