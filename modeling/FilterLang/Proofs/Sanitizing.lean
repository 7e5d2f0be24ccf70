import FilterLang.Charset
import Mathlib.Data.List.Chain

/-! Sanitizing, run by run. A text falls into allowed and rejected runs by turns; the allowed ones
stay, and a rejected one becomes a single replacement or nothing. A second pass then changes nothing,
even where the replacement is a character that the whitelist rejects. -/
namespace FilterLang.Charset

variable {cs : Charset} {s t : Text} {c r : Char} {rejecting : Bool}

theorem mem_sanitizeFrom (h : c ∈ cs.sanitizeFrom rejecting s) :
    cs.allows c ∨ c ∈ cs.replacement := by
  fun_induction sanitizeFrom cs rejecting s with
  | case1 rejecting => cases h
  | case2 rejecting d s hd ih =>
    rcases List.mem_cons.mp h with rfl | h
    · exact .inl hd
    · exact ih h
  | case3 d s hd ih => exact ih h
  | case4 rejecting d s hd hr ih =>
    rcases List.mem_append.mp h with h | h
    · exact .inr (Option.mem_toList.mp h)
    · exact ih h

/-- A whitelist that allows its own replacement lets nothing else through. -/
theorem allows_of_mem_sanitize (hr : ∀ d ∈ cs.replacement, cs.allows d) (h : c ∈ cs.sanitize s) :
    cs.allows c :=
  (mem_sanitizeFrom h).elim id (hr c)

/-- Behind an allowed character, allowed text is copied. -/
theorem sanitizeFrom_append_of_allows (ht : ∀ c ∈ t, cs.allows c) :
    cs.sanitizeFrom false (t ++ s) = t ++ cs.sanitizeFrom false s := by
  induction t with
  | nil => rfl
  | cons c t ih =>
    obtain ⟨hc, ht⟩ := List.forall_mem_cons.mp ht
    rw [List.cons_append, sanitizeFrom, if_pos hc, ih ht, List.cons_append]

/-- Behind a rejected character, rejected text is dropped. -/
theorem sanitizeFrom_append_of_rejects (ht : ∀ c ∈ t, cs.allows c = false) :
    cs.sanitizeFrom true (t ++ s) = cs.sanitizeFrom true s := by
  induction t with
  | nil => rfl
  | cons c t ih =>
    obtain ⟨hc, ht⟩ := List.forall_mem_cons.mp ht
    simp [sanitizeFrom, hc, ih ht]

theorem sanitize_eq_self (h : ∀ c ∈ s, cs.allows c) : cs.sanitize s = s := by
  simpa [sanitize, sanitizeFrom] using sanitizeFrom_append_of_allows (s := []) h

/-- Neighbouring characters on which the whitelist decides alike. -/
structure Run (cs : Charset) where
  text : Text
  allowed : Bool
  ne_nil : text ≠ [] := by decide
  alike : text.all (cs.allows · == allowed) := by decide

namespace Run

theorem allows_eq (run : cs.Run) : ∀ c ∈ run.text, cs.allows c = run.allowed := by
  simpa using run.alike

/-- What becomes of a run as a whole. -/
def settled (run : cs.Run) : Text := if run.allowed then run.text else cs.replacement.toList

/-- Allowed and rejected runs stand by turns, so that none of them could be longer. -/
def Maximal (runs : List cs.Run) : Prop := runs.IsChain fun a b => a.allowed ≠ b.allowed

instance (runs : List cs.Run) : Decidable (Maximal runs) :=
  inferInstanceAs (Decidable (List.IsChain _ runs))

def single (cs : Charset) (c : Char) : cs.Run where
  text := [c]
  allowed := cs.allows c
  ne_nil := List.cons_ne_nil c []
  alike := by simp

def extend (run : cs.Run) (h : cs.allows c = run.allowed) : cs.Run where
  text := c :: run.text
  allowed := run.allowed
  ne_nil := List.cons_ne_nil c run.text
  alike := by simpa [h] using run.allows_eq

/-- Every text falls into maximal runs. -/
theorem exists_maximal (cs : Charset) (s : Text) :
    ∃ runs : List cs.Run, Maximal runs ∧ runs.flatMap text = s := by
  induction s with
  | nil => exact ⟨[], .nil, rfl⟩
  | cons c s ih =>
    obtain ⟨runs, hruns, rfl⟩ := ih
    cases runs with
    | nil => exact ⟨[single cs c], .singleton _, rfl⟩
    | cons run runs =>
      by_cases hc : cs.allows c = run.allowed
      · have hmaximal : Maximal (run.extend hc :: runs) := by
          obtain ⟨hnext, htail⟩ := List.isChain_cons.mp hruns
          exact htail.cons hnext
        exact ⟨run.extend hc :: runs, hmaximal, rfl⟩
      · exact ⟨single cs c :: run :: runs, .cons_cons hc hruns, rfl⟩

/-- One run is taken as a whole, if it does not continue a rejected one. -/
theorem sanitizeFrom_append (run : cs.Run) (h : rejecting = true → run.allowed = true) :
    cs.sanitizeFrom rejecting (run.text ++ s) =
      run.settled ++ cs.sanitizeFrom (!run.allowed) s := by
  obtain ⟨c, t, htext⟩ := List.exists_cons_of_ne_nil run.ne_nil
  obtain ⟨hc, ht⟩ : cs.allows c = run.allowed ∧ ∀ d ∈ t, cs.allows d = run.allowed := by
    simpa [htext] using run.allows_eq
  cases hallowed : run.allowed with
  | true =>
    rw [hallowed] at hc ht
    simp [settled, sanitizeFrom, htext, hallowed, hc, sanitizeFrom_append_of_allows ht]
  | false =>
    obtain rfl : rejecting = false := by simpa [hallowed] using h
    rw [hallowed] at hc ht
    simp [settled, sanitizeFrom, htext, hallowed, hc, sanitizeFrom_append_of_rejects ht]

/-- So are all runs of a text, as no rejected run follows another. -/
theorem sanitizeFrom_flatMap_text {runs : List cs.Run} (h : Maximal runs)
    (hfirst : ∀ run ∈ runs.head?, rejecting = true → run.allowed = true) :
    cs.sanitizeFrom rejecting (runs.flatMap text) = runs.flatMap settled := by
  induction runs generalizing rejecting with
  | nil => rfl
  | cons run runs ih =>
    obtain ⟨hnext, htail⟩ := List.isChain_cons.mp h
    -- The flag is set behind a rejected run only, and there the next run is allowed.
    have hturn : ∀ next ∈ runs.head?, (!run.allowed) = true → next.allowed = true := by
      intro next hmem hrejected
      have hrun : run.allowed = false := by simpa using hrejected
      simpa [hrun] using hnext next hmem
    rw [List.flatMap_cons, List.flatMap_cons, run.sanitizeFrom_append (hfirst run rfl),
      ih htail hturn]

theorem sanitize_flatMap_text {runs : List cs.Run} (h : Maximal runs) :
    cs.sanitize (runs.flatMap text) = runs.flatMap settled :=
  sanitizeFrom_flatMap_text h fun _ _ hrejecting => absurd hrejecting Bool.false_ne_true

/-- A rejected run shrinks to `r`. If that is rejected as well, runs stay maximal. -/
def shrunk (run : cs.Run) (r : Char) : cs.Run := if run.allowed then run else single cs r

theorem allowed_shrunk (run : cs.Run) (hr : cs.allows r = false) :
    (run.shrunk r).allowed = run.allowed := by
  cases h : run.allowed <;> simp [shrunk, single, h, hr]

theorem text_shrunk (run : cs.Run) (hr : cs.replacement = some r) :
    (run.shrunk r).text = run.settled := by
  cases h : run.allowed <;> simp [shrunk, settled, single, h, hr]

theorem settled_shrunk (run : cs.Run) (hrejected : cs.allows r = false)
    (hr : cs.replacement = some r) : (run.shrunk r).settled = run.settled := by
  rw [settled, allowed_shrunk run hrejected, text_shrunk run hr]
  cases h : run.allowed <;> simp [settled, h]

end Run

/-- A rejected replacement stands alone between allowed runs, so that it is replaced by itself. -/
theorem sanitize_sanitize (cs : Charset) (s : Text) :
    cs.sanitize (cs.sanitize s) = cs.sanitize s := by
  by_cases hallowed : ∀ r ∈ cs.replacement, cs.allows r
  · apply sanitize_eq_self
    intro c hc
    exact allows_of_mem_sanitize hallowed hc
  · obtain ⟨r, hr, hrejected⟩ : ∃ r, cs.replacement = some r ∧ cs.allows r = false := by
      simpa using hallowed
    obtain ⟨runs, hruns, rfl⟩ := Run.exists_maximal cs s
    have hshrunk : Run.Maximal (runs.map (·.shrunk r)) := by
      simpa [Run.Maximal, List.isChain_map, Run.allowed_shrunk _ hrejected] using hruns
    have htext : (runs.map (·.shrunk r)).flatMap Run.text = runs.flatMap Run.settled := by
      simp [List.flatMap_map, Run.text_shrunk _ hr]
    have hsettled : (runs.map (·.shrunk r)).flatMap Run.settled = runs.flatMap Run.settled := by
      simp [List.flatMap_map, Run.settled_shrunk _ hrejected hr]
    calc cs.sanitize (cs.sanitize (runs.flatMap Run.text))
        = cs.sanitize ((runs.map (·.shrunk r)).flatMap Run.text) := by
          rw [Run.sanitize_flatMap_text hruns, htext]
      _ = (runs.map (·.shrunk r)).flatMap Run.settled := Run.sanitize_flatMap_text hshrunk
      _ = runs.flatMap Run.settled := hsettled
      _ = cs.sanitize (runs.flatMap Run.text) := (Run.sanitize_flatMap_text hruns).symm

/-- Sanitizing keeps every allowed run of a text and puts one replacement, or nothing, for every
maximal rejected one. So there is nothing in the result but allowed characters and replacements,
text of allowed characters stays as it is, and so does text that is sanitized already, whether or
not the replacement is allowed. -/
theorem sanitizing_settles_runs (cs : Charset) (s : Text) :
    (∃ runs : List cs.Run, Run.Maximal runs ∧ runs.flatMap Run.text = s) ∧
    (∀ runs : List cs.Run, Run.Maximal runs → runs.flatMap Run.text = s →
      cs.sanitize s = runs.flatMap Run.settled) ∧
    cs.sanitize (cs.sanitize s) = cs.sanitize s ∧
    (∀ c ∈ cs.sanitize s, cs.allows c ∨ cs.replacement = some c) ∧
    ((∀ c ∈ s, cs.allows c) → cs.sanitize s = s) := by
  refine ⟨Run.exists_maximal cs s, ?_, sanitize_sanitize cs s, ?_, sanitize_eq_self⟩
  · rintro runs hruns rfl
    exact Run.sanitize_flatMap_text hruns
  · intro c hc
    exact mem_sanitizeFrom hc

/-- A rejected replacement that stands among other rejected characters, and an allowed one beside
copies of itself. -/
theorem sanitizing_settles_runs_copies :
    sanitize ⟨[' '], some '#'⟩ "a!#b ##".toList = "a#b #".toList ∧
      sanitize ⟨[' '], some '#'⟩ "a#b #".toList = "a#b #".toList ∧
      search.sanitize "50%_;off".toList = "50%%off".toList ∧
      search.sanitize "50%%off".toList = "50%%off".toList := by
  obtain ⟨-, hruns, hagain, -⟩ := sanitizing_settles_runs ⟨[' '], some '#'⟩ "a!#b ##".toList
  have hhash := hruns [.mk "a".toList true, .mk "!#".toList false, .mk "b ".toList true,
    .mk "##".toList false] (by decide) (by decide)
  obtain ⟨-, hruns, -⟩ := sanitizing_settles_runs search "50%_;off".toList
  have hsearch := hruns [.mk "50%".toList true, .mk "_;".toList false, .mk "off".toList true]
    (by decide) (by decide)
  obtain ⟨-, -, -, -, hsame⟩ := sanitizing_settles_runs search "50%%off".toList
  rw [hhash] at hagain
  exact ⟨hhash, hagain, hsearch, hsame (List.all_eq_true.mp (by decide))⟩

end FilterLang.Charset
