import FilterLang.Proofs.Scanning

/-! Reading a block is the inverse of printing one: a text is read exactly if it is the print of
units in canonical form, and then as those units. -/
namespace FilterLang

variable {α β ε : Type} {mode : Mode} {s : Text} {c : Condition} {k : Option Connector}
  {grouping : Bool} {n : Node Condition} {ns : List (Node Condition)} {g : Segment}

/-- What turns each item into another and back does the same for lists of them. -/
theorem mapM_eq_ok_iff_of_inverse {f : α → Except ε β} {back : β → α} {P : α → Prop} {Q : β → Prop}
    (h : ∀ a b, P a ∧ f a = .ok b ↔ a = back b ∧ Q b) {as : List α} {bs : List β} :
    (∀ a ∈ as, P a) ∧ as.mapM f = .ok bs ↔ as = bs.map back ∧ ∀ b ∈ bs, Q b := by
  induction as generalizing bs with
  | nil => cases bs <;> simp [pure, Except.pure]
  | cons a as ih =>
    simp only [List.mapM_cons, bind_eq_ok_iff, List.forall_mem_cons]
    constructor
    · rintro ⟨⟨ha, has⟩, b, hb, bs, hbs, he⟩
      cases he
      obtain ⟨rfl, hq⟩ := (h a b).mp ⟨ha, hb⟩
      obtain ⟨rfl, hqs⟩ := ih.mp ⟨has, hbs⟩
      exact ⟨rfl, List.forall_mem_cons.mpr ⟨hq, hqs⟩⟩
    · rintro ⟨he, hq⟩
      cases bs with
      | nil => contradiction
      | cons b bs =>
        obtain ⟨ha, has⟩ := List.cons.inj he
        obtain ⟨hq, hqs⟩ := List.forall_mem_cons.mp hq
        have hb := (h a b).mpr ⟨ha, hq⟩
        have hbs := ih.mpr ⟨has, hqs⟩
        exact ⟨⟨hb.1, hbs.1⟩, b, hb.2, bs, hbs.2, rfl⟩

namespace Condition

theorem print_of_parse (h : parse mode s = .ok c) : c.print = s := by
  unfold parse at h
  split at h
  · contradiction
  · split at h
    · contradiction
    · next hc =>
      cases h
      simpa [print] using Text.append_of_cut? hc

theorem print_ne_nil (c : Condition) : c.print ≠ [] := by
  cases c with
  | mk field operator value => cases operator <;> simp [print, Operator.token]

/-- The condition can stand in front of the connector `k`: nothing in its text is structure, the
text reads as the condition, and no bar at its end runs into a `||`. -/
structure Stands (mode : Mode) (c : Condition) (k : Option Connector) : Prop where
  noOpening : '(' ∉ c.print
  noClosing : ')' ∉ c.print
  free : '*' ∉ c.print ∧ ¬ ['|', '|'] <:+: c.print
  reads : parse mode c.print = .ok c
  noBar : k = some .or → c.print.getLast? ≠ some '|'

end Condition

namespace Node

/-- The units of one level: each is as it should be, and connectors stand between them only. -/
def Level (P : Node Condition → Prop) (ns : List (Node Condition)) : Prop :=
  Connector.Linked (ns.map connector) ∧ ∀ n ∈ ns, P n

/-- A single condition that satisfies `P` together with its connector. -/
def LeafOf (P : Condition → Option Connector → Prop) : Node Condition → Prop
  | leaf c k => P c k
  | group _ _ => False

/-- A single condition, or a group of at least one. -/
def UnitOf (P : Condition → Option Connector → Prop) : Node Condition → Prop
  | leaf c k => P c k
  | group children _ => children ≠ [] ∧ Level (LeafOf P) children

/-- The trees that reading makes. -/
def Canonical (mode : Mode) (ns : List (Node Condition)) : Prop :=
  Level (UnitOf (Condition.Stands mode)) ns

/-- The unit as a scan finds it. -/
def segment : Node Condition → Segment
  | leaf c k => .atom c.print k
  | group children k => .group (printAll children) k

@[simp] theorem print_segment (n : Node Condition) : n.segment.print = n.print := by
  cases n <;> simp [segment, Segment.print, print]

@[simp] theorem connector_segment (n : Node Condition) : n.segment.connector = n.connector := by
  cases n <;> rfl

theorem printAll_eq_flatten (ns : List (Node Condition)) :
    printAll ns = (ns.map print).flatten := by
  induction ns with
  | nil => rfl
  | cons n ns ih => simp [printAll, ih]

theorem print_ne_nil (n : Node Condition) : n.print ≠ [] := by
  cases n <;> simp [print, Condition.print_ne_nil]

theorem printAll_eq_nil_iff : printAll ns = [] ↔ ns = [] := by
  cases ns <;> simp [printAll, print_ne_nil]

theorem LeafOf.imp {P Q : Condition → Option Connector → Prop} (h : ∀ c k, P c k → Q c k)
    (hn : LeafOf P n) : LeafOf Q n := by
  cases n with
  | leaf c k => exact h c k hn
  | group children k => exact hn

/-- A character that is no connector stands in the text of leaves only inside their conditions. -/
theorem mem_printAll_leaves_iff {m : Char} (hm : m ≠ '*' ∧ m ≠ '|')
    (h : ∀ n ∈ ns, LeafOf (fun _ _ => True) n) :
    m ∈ printAll ns ↔ ∃ c k, leaf c k ∈ ns ∧ m ∈ c.print := by
  have hk : ∀ k, m ∉ Connector.text k := by
    rintro (_ | _ | _) <;> simp [Connector.text, Connector.token, hm]
  induction ns with
  | nil => simp [printAll]
  | cons n ns ih =>
    obtain ⟨hn, hns⟩ := List.forall_mem_cons.mp h
    cases n with
    | group children k => exact hn.elim
    | leaf c k => simp [printAll, print, hk, ih hns, or_and_right, exists_or]

/-- Inside a group no parenthesis is left to find. -/
theorem parenthesis_notMem_leaves (h : ∀ n ∈ ns, LeafOf (Condition.Stands mode) n) :
    '(' ∉ printAll ns ∧ ')' ∉ printAll ns := by
  have hall : ∀ n ∈ ns, LeafOf (fun _ _ => True) n :=
    fun n hn => (h n hn).imp fun _ _ _ => trivial
  rw [mem_printAll_leaves_iff (by decide) hall, mem_printAll_leaves_iff (by decide) hall]
  constructor
  · rintro ⟨c, l, hn, hm⟩
    exact (h _ hn).noOpening hm
  · rintro ⟨c, l, hn, hm⟩
    exact (h _ hn).noClosing hm

end Node

namespace Block

open Node

theorem collect_eq_ok_iff {f : Segment → Except Error α} {scan : Scan} {units : List α} :
    collect f scan = .ok units ↔ scan.fault = none ∧ scan.segments.mapM f = .ok units := by
  unfold collect
  rw [bind_eq_ok_iff]
  cases scan.fault <;> simp [pure, Except.pure]

/-- Where a scan's units are read back one by one, so is a whole level of them. -/
theorem collect_scan_eq_ok_iff {f : Segment → Except Error (Node Condition)}
    {P : Node Condition → Prop}
    (h : ∀ g n, g.Scannable grouping ∧ f g = .ok n ↔ g = n.segment ∧ P n) :
    collect f (Scan.of grouping s) = .ok ns ↔ printAll ns = s ∧ Level P ns := by
  have hprint : ((ns.map segment).map Segment.print).flatten = printAll ns := by
    simp [printAll_eq_flatten, Function.comp_def]
  have hlinks : (ns.map segment).map Segment.connector = ns.map connector := by
    simp [Function.comp_def]
  rw [collect_eq_ok_iff, Level]
  constructor
  · rintro ⟨hf, hm⟩
    obtain ⟨hs, hg, hl⟩ := Scan.of_eq_iff.mp (show Scan.of grouping s = ⟨_, none⟩ by rw [← hf])
    obtain ⟨he, hp⟩ := (mapM_eq_ok_iff_of_inverse h).mp ⟨hg, hm⟩
    rw [he, hprint] at hs
    rw [he, hlinks] at hl
    exact ⟨hs.symm, hl, hp⟩
  · rintro ⟨rfl, hl, hp⟩
    obtain ⟨hg, hm⟩ := (mapM_eq_ok_iff_of_inverse h).mpr ⟨rfl, hp⟩
    rw [← hlinks] at hl
    rw [Scan.of_eq_iff.mpr ⟨hprint.symm, hg, hl⟩]
    exact ⟨rfl, hm⟩

theorem parseAtom_eq_ok_iff :
    g.Scannable false ∧ parseAtom mode g = .ok n ↔
      g = n.segment ∧ LeafOf (Condition.Stands mode) n := by
  constructor
  · rintro ⟨hg, h⟩
    cases g with
    | group content k => simp [parseAtom] at h
    | atom text k =>
      obtain ⟨c, hc, rfl⟩ := map_eq_ok_iff.mp h
      obtain ⟨-, ho, hcl, hf, ha⟩ := hg
      obtain rfl := Condition.print_of_parse hc
      exact ⟨rfl, ho, hcl, hf, hc, Connector.apart_text_iff.mp ha⟩
  · rintro ⟨rfl, hn⟩
    cases n with
    | group children k => exact hn.elim
    | leaf c k =>
      refine ⟨⟨c.print_ne_nil, hn.noOpening, hn.noClosing, hn.free, ?_⟩, ?_⟩
      · exact Connector.apart_text_iff.mpr hn.noBar
      · exact map_eq_ok_iff.mpr ⟨c, hn.reads, rfl⟩

theorem parseSegment_eq_ok_iff :
    g.Scannable true ∧ parseSegment mode g = .ok n ↔
      g = n.segment ∧ UnitOf (Condition.Stands mode) n := by
  cases g with
  | atom text k =>
    -- An atom is scanned and read in a block as it is inside a group.
    have h : (Segment.atom text k).Scannable false ∧ parseAtom mode (.atom text k) = .ok n ↔
        Segment.atom text k = n.segment ∧ LeafOf (Condition.Stands mode) n := parseAtom_eq_ok_iff
    cases n with
    | leaf c l => exact h
    | group children l =>
      refine ⟨fun hg => (h.mp hg).2.elim, ?_⟩
      rintro ⟨he, -⟩
      cases he
  | group content k =>
    simp only [parseSegment, map_eq_ok_iff, collect_scan_eq_ok_iff (fun _ _ => parseAtom_eq_ok_iff)]
    constructor
    · rintro ⟨⟨-, hne, -⟩, children, ⟨rfl, hl⟩, rfl⟩
      exact ⟨rfl, fun he => hne (printAll_eq_nil_iff.mpr he), hl⟩
    · rintro ⟨he, hn⟩
      cases n with
      | leaf c l => cases he
      | group children l =>
        cases he
        exact ⟨⟨rfl, fun he => hn.1 (printAll_eq_nil_iff.mp he), parenthesis_notMem_leaves hn.2.2⟩,
          children, ⟨rfl, hn.2⟩, rfl⟩

/-- The text of a block without blanks is read exactly if it is the print of a canonical tree. -/
theorem collect_eq_ok_iff_canonical :
    collect (parseSegment mode) (Scan.of true s) = .ok ns ↔ printAll ns = s ∧ Canonical mode ns :=
  collect_scan_eq_ok_iff fun _ _ => parseSegment_eq_ok_iff

theorem parse_eq_ok_iff :
    parse mode s = .ok ns ↔ printAll ns = mode.normalize s ∧ Canonical mode ns :=
  collect_eq_ok_iff_canonical

end Block

theorem Mode.normalize_normalize (mode : Mode) (s : Text) :
    mode.normalize (mode.normalize s) = mode.normalize s := by
  cases mode with
  | standard => simp [normalize, Text.unblank]
  | search =>
    simp only [normalize, List.map_map]
    apply List.map_congr_left
    intro c _
    by_cases h : Text.isBlank c <;> simp [h]

/-- Reading inverts printing. A block is read as given units exactly if they are canonical and their
print is the block without its blanks; what was read is printed and read again unchanged, and no
text has two readings. -/
theorem parse_iff_print_canonical (mode : Mode) (raw : Text) (ns : List (Node Condition)) :
    (Block.parse mode raw = .ok ns ↔
      Node.printAll ns = mode.normalize raw ∧ Node.Canonical mode ns) ∧
    (Block.parse mode raw = .ok ns → Block.parse mode (Node.printAll ns) = .ok ns) ∧
    ∀ ms, Node.Canonical mode ns → Node.Canonical mode ms →
      Node.printAll ns = Node.printAll ms → ns = ms := by
  refine ⟨Block.parse_eq_ok_iff, ?_, ?_⟩
  · intro h
    obtain ⟨hp, hc⟩ := Block.parse_eq_ok_iff.mp h
    refine Block.parse_eq_ok_iff.mpr ⟨?_, hc⟩
    rw [hp, mode.normalize_normalize]
  · intro ms hns hms he
    have h₁ := Block.collect_eq_ok_iff_canonical.mpr ⟨he, hns⟩
    have h₂ := Block.collect_eq_ok_iff_canonical.mpr ⟨rfl, hms⟩
    exact Except.ok.inj (h₁.symm.trans h₂)

end FilterLang
