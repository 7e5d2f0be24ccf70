import FilterLang.Proofs.Scanning

/-! A scan takes its text once, in order and to the end, or up to the unit that it cannot read. That
holds for every text, and what was read before a fault is as sound as the units of a good block. -/
namespace FilterLang.Scan

variable {grouping : Bool} {s rest : Text} {g : Segment} {gs : List Segment} {fault : Option Fault}

/-- The units of a scan, and after them its fault. -/
def items (scan : Scan) : List (Except Fault Segment) :=
  scan.segments.map .ok ++ scan.fault.toList.map .error

/-- Calls in front of a text give these items, and after them nothing. -/
inductive Gives (grouping : Bool) : Text → List (Except Fault Segment) → Prop where
  | done {s : Text} : next grouping s = none → Gives grouping s []
  | call {s rest : Text} {item : Except Fault Segment} {items : List (Except Fault Segment)} :
    next grouping s = some (item, rest) → Gives grouping rest items →
      Gives grouping s (item :: items)

theorem gives_items (grouping : Bool) (s : Text) : Gives grouping s (Scan.of grouping s).items := by
  fun_induction Scan.of grouping s with
  | case1 s hn => exact .done hn
  | case2 s fault rest hn =>
    obtain ⟨-, -, rfl⟩ := next_eq_error_iff.mp hn
    exact .call hn (.done rfl)
  | case3 s g rest hn tail ih => exact .call hn ih

theorem Gives.unique {xs ys : List (Except Fault Segment)} (hx : Gives grouping s xs)
    (hy : Gives grouping s ys) : xs = ys := by
  induction hx generalizing ys with
  | done hnone =>
    cases hy with
    | done => rfl
    | call hcall => simp [hnone] at hcall
  | call hcall _ ih =>
    cases hy with
    | done hnone => simp [hnone] at hcall
    | call hcall' htail =>
      cases hcall.symm.trans hcall'
      rw [ih htail]

/-- The text of units as they follow each other. -/
def printed (gs : List Segment) : Text := (gs.map Segment.print).flatten

@[simp] theorem printed_nil : printed [] = [] := rfl

@[simp] theorem printed_cons (g : Segment) (gs : List Segment) :
    printed (g :: gs) = g.print ++ printed gs := by
  simp [printed]

/-- How a scan takes a text apart. -/
structure Consumes (grouping : Bool) (s : Text) (scan : Scan) : Prop where
  /-- The units make up the front of the text. -/
  front : printed scan.segments <+: s
  /-- There is a fault exactly if some of the text is left. -/
  whole : printed scan.segments = s ↔ scan.fault = none
  /-- Units are not empty and hold nothing of the structure around them. -/
  scannable : ∀ g ∈ scan.segments, g.Scannable grouping
  /-- The unit that ends the text, and no other, is without a connector. -/
  last : ∀ before g after, scan.segments = before ++ g :: after →
    (g.connector = none ↔ printed (before ++ [g]) = s)
  /-- There is no more than one item for each character. -/
  length_le : scan.items.length ≤ s.length

theorem consumes_nil : Consumes grouping [] ⟨[], none⟩ where
  front := List.nil_prefix
  whole := by simp
  scannable := by simp
  last := by simp
  length_le := by simp [items]

theorem consumes_fault (hs : s ≠ []) (fault : Fault) : Consumes grouping s ⟨[], some fault⟩ where
  front := List.nil_prefix
  whole := by simpa using Ne.symm hs
  scannable := by simp
  last := by simp
  length_le := List.length_pos_iff.mpr hs

/-- A unit in front of a text is one step more. -/
theorem Consumes.unit (h : Consumes grouping rest ⟨gs, fault⟩) (hg : g.Scannable grouping)
    (hlink : g.connector = none ↔ rest = []) :
    Consumes grouping (g.print ++ rest) ⟨g :: gs, fault⟩ where
  front := by
    rw [printed_cons]
    exact List.prefix_append_right_inj _ |>.mpr h.front
  whole := by
    rw [printed_cons, List.append_cancel_left_eq]
    exact h.whole
  scannable := by
    intro x hx
    rcases List.mem_cons.mp hx with rfl | hx
    · exact hg
    · exact h.scannable x hx
  last := by
    intro before x after he
    cases before with
    | nil =>
      obtain ⟨rfl, rfl⟩ := List.cons.inj he
      simpa [eq_comm] using hlink
    | cons b bs =>
      obtain ⟨rfl, htail⟩ := List.cons.inj he
      simpa using h.last bs x after htail
  length_le := by
    have hprint : 0 < g.print.length := List.length_pos_iff.mpr (Segment.print_ne_nil hg)
    have htail : gs.length + fault.toList.length ≤ rest.length := by
      simpa [items] using h.length_le
    simp only [items, List.length_append, List.length_map, List.length_cons]
    omega

/-- A whole scan, unit by unit. -/
theorem consumes_of (grouping : Bool) (s : Text) : Consumes grouping s (Scan.of grouping s) := by
  fun_induction Scan.of grouping s with
  | case1 s hn =>
    obtain rfl := next_eq_none_iff.mp hn
    exact consumes_nil
  | case2 s fault rest hn => exact consumes_fault (next_eq_error_iff.mp hn).1 fault
  | case3 s g rest hn tail ih =>
    obtain ⟨rfl, hg, hlink⟩ := Segment.read_eq_ok_iff.mp (next_eq_ok_iff.mp hn)
    exact ih.unit hg hlink

/-- Every text is scanned to an end. The calls give units and after them at most one fault, which is
the last item; the units are the text up to that fault, each of them sound, and all of the text if
there is none. -/
theorem scan_consumes_text (grouping : Bool) (s : Text) :
    (∀ items, Gives grouping s items ↔
      items = (Scan.of grouping s).segments.map .ok ++
        (Scan.of grouping s).fault.toList.map .error) ∧
    Consumes grouping s (Scan.of grouping s) := by
  refine ⟨?_, consumes_of grouping s⟩
  intro items
  constructor
  · intro h
    exact h.unique (gives_items grouping s)
  · rintro rfl
    exact gives_items grouping s

-- A bar that stands alone is text, and what is read in front of the fault stays.
example : Scan.of true "(a||b)*é|*d)".toList =
    ⟨[.group "a||b".toList (some .and), .atom "é|".toList (some .and)],
      some (.strayParenthesis "d)".toList)⟩ := by cbv

end FilterLang.Scan
