import FilterLang.Block

/-! Scanning described by what it leaves: a unit is read exactly if its text stands at the front and
nothing in it, or at its seam with the rest, is a connector or a parenthesis. -/
namespace FilterLang

variable {s text rest : Text} {c m : Char} {k : Option Connector} {grouping : Bool}

/-- A text is cut exactly if the mark stands somewhere in it. -/
theorem Text.cut?_eq_none_iff {mark : Text} (hm : mark ≠ []) :
    Text.cut? mark s = none ↔ ¬ mark <:+: s := by
  induction s with
  | nil => simpa [Text.cut?] using hm
  | cons c cs ih =>
    rw [Text.cut?, List.infix_cons_iff, not_or, ← ih, ← List.isPrefixOf_iff_prefix]
    split
    · next hp => simp [hp]
    · next hp => simp [hp]

theorem Text.cut?_singleton_eq_some_iff {before : Text} :
    Text.cut? [m] s = some (before, rest) ↔ s = before ++ m :: rest ∧ m ∉ before := by
  induction s generalizing before with
  | nil => simp [Text.cut?]
  | cons c cs ih =>
    by_cases hc : c = m
    · subst c
      cases before with
      | nil => simp [Text.cut?, List.isPrefixOf, eq_comm]
      | cons b bs => simp +contextual [Text.cut?, List.isPrefixOf, eq_comm]
    · have hp : ([m].isPrefixOf (c :: cs)) = false := by simp [List.isPrefixOf, Ne.symm hc]
      simp only [Text.cut?, hp, Bool.false_eq_true, if_false, Option.map_eq_some_iff, Prod.exists,
        Prod.mk.injEq]
      constructor
      · rintro ⟨b, r, hb, rfl, rfl⟩
        obtain ⟨rfl, hm⟩ := ih.mp hb
        simp [hm, Ne.symm hc]
      · rintro ⟨he, hm⟩
        cases before with
        | nil => exact absurd (List.cons.inj he).1 hc
        | cons b bs =>
          obtain ⟨rfl, rfl⟩ := List.cons.inj he
          exact ⟨bs, rest, ih.mpr ⟨rfl, fun h => hm (List.mem_cons_of_mem _ h)⟩, rfl, rfl⟩

namespace Connector

/-- No connector stands in the text. -/
def Free (s : Text) : Prop := '*' ∉ s ∧ ¬ ['|', '|'] <:+: s

/-- The end of a text and the start of the next make up no `||`. -/
def Apart (s rest : Text) : Prop := s.getLast? = some '|' → rest.head? ≠ some '|'

theorem lead?_token_append (k : Connector) (rest : Text) :
    lead? (k.token ++ rest) = some (k, rest) := by
  cases k <;> rfl

theorem lead?_cons_eq_none_iff :
    lead? (c :: s) = none ↔ c ≠ '*' ∧ Apart [c] s := by
  constructor
  · intro h
    refine ⟨?_, ?_⟩
    · rintro rfl
      simp [lead?] at h
    · intro hc hs
      obtain rfl : c = '|' := by simpa using hc
      obtain ⟨t, rfl⟩ := List.head?_eq_some_iff.mp hs
      simp [lead?] at h
  · rintro ⟨hc, ha⟩
    unfold lead?
    split
    · next he => exact absurd (List.cons.inj he).1 hc
    · next he =>
      obtain ⟨rfl, rfl⟩ := List.cons.inj he
      exact absurd rfl (ha rfl)
    · rfl

theorem free_cons_iff : Free (c :: s) ↔ (c ≠ '*' ∧ Apart [c] s) ∧ Free s := by
  have hp : ['|', '|'] <+: c :: s ↔ c = '|' ∧ s.head? = some '|' := by
    cases s <;> simp [List.cons_prefix_cons, eq_comm]
  simp only [Free, Apart, List.infix_cons_iff, hp, List.mem_cons, not_or]
  grind

theorem free_cons_and_apart_iff :
    Free (c :: s) ∧ Apart (c :: s) rest ↔
      lead? (c :: (s ++ rest)) = none ∧ Free s ∧ Apart s rest := by
  rw [free_cons_iff, lead?_cons_eq_none_iff]
  cases s with
  | nil => simp [Apart, Free]
  | cons d ds => simp [Apart, List.getLast?_cons_cons, and_assoc]

/-- The split in front of the first connector is the only one with a part that is free of connectors
and keeps apart from a rest that is empty or starts with one. -/
theorem span_eq_iff :
    span s = (text, rest) ↔
      s = text ++ rest ∧ (Free text ∧ Apart text rest) ∧ (rest = [] ∨ (lead? rest).isSome) := by
  induction s generalizing text with
  | nil =>
    simp only [span, Prod.mk.injEq, List.nil_eq, List.append_eq_nil_iff]
    constructor
    · rintro ⟨rfl, rfl⟩
      simp [Free, Apart]
    · rintro ⟨⟨rfl, rfl⟩, -⟩
      exact ⟨rfl, rfl⟩
  | cons c cs ih =>
    have hlead : ∀ {bs : Text}, cs = bs ++ rest →
        (Free (c :: bs) ∧ Apart (c :: bs) rest ↔
          lead? (c :: cs) = none ∧ Free bs ∧ Apart bs rest) := by
      rintro bs rfl
      exact free_cons_and_apart_iff
    rw [span]
    cases hl : lead? (c :: cs) with
    | some p =>
      simp only [Option.isSome_some, if_true, Prod.mk.injEq]
      constructor
      · rintro ⟨rfl, rfl⟩
        simp [Free, Apart, hl]
      · rintro ⟨he, hf, -⟩
        cases text with
        | nil => exact ⟨rfl, he⟩
        | cons b bs =>
          obtain ⟨rfl, hcs⟩ := List.cons.inj he
          simp [(hlead hcs).mp hf] at hl
    | none =>
      simp only [Option.isSome_none, Bool.false_eq_true, if_false, Prod.mk.injEq]
      constructor
      · rintro ⟨rfl, rfl⟩
        obtain ⟨he, hf, hr⟩ := ih.mp rfl
        exact ⟨by rw [List.cons_append, ← he], (hlead he).mpr ⟨hl, hf⟩, hr⟩
      · rintro ⟨he, hf, hr⟩
        cases text with
        | nil =>
          subst he
          simp [hl] at hr
        | cons b bs =>
          obtain ⟨rfl, hcs⟩ := List.cons.inj he
          have hs := ih.mpr ⟨hcs, ((hlead hcs).mp hf).2, hr⟩
          simp [hs]

theorem apart_text_iff :
    Apart s (Connector.text k) ↔ (k = some .or → s.getLast? ≠ some '|') := by
  obtain _ | _ | _ := k <;> simp [Apart, Connector.text, token]

theorem Apart.of_append {t : Text} (h : Apart s (t ++ rest)) : Apart s t := by
  cases t with
  | nil => simp [Apart]
  | cons c cs => simpa [Apart] using h

theorem apart_text_append_iff (hl : k = none ↔ rest = []) :
    Apart s (Connector.text k ++ rest) ↔ Apart s (Connector.text k) := by
  obtain _ | _ | _ := k
  · simp [hl.mp rfl]
  · simp [Apart, Connector.text, token]
  · simp [Apart, Connector.text, token]

/-- Every connector but the last one of a level is there, and the last one is not. -/
def Linked : List (Option Connector) → Prop
  | [] => True
  | [k] => k = none
  | k :: l :: ks => k ≠ none ∧ Linked (l :: ks)

theorem linked_cons_iff {ks : List (Option Connector)} :
    Linked (k :: ks) ↔ (k = none ↔ ks = []) ∧ Linked ks := by
  cases ks <;> simp [Linked]

end Connector

namespace Segment

def connector : Segment → Option Connector
  | atom _ k => k
  | group _ k => k

/-- What a unit has to be for a scan to find it. Only where `grouping` is set are there groups. -/
def Scannable (grouping : Bool) : Segment → Prop
  | atom text k =>
    text ≠ [] ∧ '(' ∉ text ∧ ')' ∉ text ∧ Connector.Free text ∧
      Connector.Apart text (Connector.text k)
  | group content _ => grouping = true ∧ content ≠ [] ∧ '(' ∉ content ∧ ')' ∉ content

theorem print_ne_nil {g : Segment} (h : g.Scannable grouping) : g.print ≠ [] := by
  cases g with
  | atom text k => simp [print, h.1]
  | group content k => simp [print]

theorem readLink_eq_ok_iff :
    readLink s = .ok (k, rest) ↔ s = Connector.text k ++ rest ∧ (k = none ↔ rest = []) := by
  constructor
  · intro h
    refine ⟨(append_of_readLink h).symm, ?_⟩
    unfold readLink at h
    split at h
    · cases h
      simp
    · split at h
      · contradiction
      · split at h
        · contradiction
        · next hr =>
          cases h
          simpa using hr
  · rintro ⟨rfl, hk⟩
    cases k with
    | none => simp [readLink, Connector.text, hk.mp rfl]
    | some k =>
      have hr : rest ≠ [] := fun he => by simpa using hk.mpr he
      simp [readLink, Connector.text, Connector.lead?_token_append, hr]

theorem readGroup_eq_ok_iff :
    readGroup s = .ok (text, rest) ↔
      s = text ++ ')' :: rest ∧ text ≠ [] ∧ '(' ∉ text ∧ ')' ∉ text := by
  unfold readGroup
  constructor
  · intro h
    split at h
    · contradiction
    · next hc =>
      obtain ⟨hs, hm⟩ := Text.cut?_singleton_eq_some_iff.mp hc
      split at h
      · contradiction
      · split at h
        · contradiction
        · cases h
          simp_all
  · rintro ⟨hs, hne, ho, hc⟩
    simp [Text.cut?_singleton_eq_some_iff.mpr ⟨hs, hc⟩, hne, ho]

theorem readAtom_eq_ok_iff :
    readAtom s = .ok (text, rest) ↔
      Connector.span s = (text, rest) ∧ text ≠ [] ∧ '(' ∉ text ∧ ')' ∉ text := by
  simp only [readAtom]
  constructor
  · intro h
    split at h
    · contradiction
    · split at h
      · contradiction
      · cases h
        simp_all
  · rintro ⟨he, hne, ho, hc⟩
    simp [he, hne, ho, hc]

theorem read_eq_of_head?_ne (h : s.head? ≠ some '(') :
    read grouping s = (do
      let (text, rest) ← readAtom s
      let (k, rest) ← readLink rest
      return (atom text k, rest)) := by
  unfold read
  split
  · exact absurd rfl h
  · rfl

/-- One step of a scan. A unit without a connector is the last one. -/
theorem read_eq_ok_iff {g : Segment} :
    read grouping s = .ok (g, rest) ↔
      s = g.print ++ rest ∧ g.Scannable grouping ∧ (g.connector = none ↔ rest = []) := by
  constructor
  · intro h
    refine ⟨(append_of_read h).symm, ?_⟩
    unfold read at h
    split at h
    · obtain ⟨⟨content, r⟩, hg, h⟩ := bind_eq_ok_iff.mp h
      obtain ⟨⟨k, r'⟩, hk, h⟩ := bind_eq_ok_iff.mp h
      cases h
      exact ⟨⟨rfl, (readGroup_eq_ok_iff.mp hg).2⟩, (readLink_eq_ok_iff.mp hk).2⟩
    · obtain ⟨⟨text, r⟩, ha, h⟩ := bind_eq_ok_iff.mp h
      obtain ⟨⟨k, r'⟩, hk, h⟩ := bind_eq_ok_iff.mp h
      cases h
      obtain ⟨hs, hne, ho, hc⟩ := readAtom_eq_ok_iff.mp ha
      obtain ⟨-, ⟨hf, hap⟩, -⟩ := Connector.span_eq_iff.mp hs
      obtain ⟨rfl, hl⟩ := readLink_eq_ok_iff.mp hk
      exact ⟨⟨hne, ho, hc, hf, hap.of_append⟩, hl⟩
  · rintro ⟨rfl, hg, hl⟩
    have hk : readLink (Connector.text g.connector ++ rest) = .ok (g.connector, rest) :=
      readLink_eq_ok_iff.mpr ⟨rfl, hl⟩
    cases g with
    | group content k =>
      obtain ⟨rfl, hg⟩ := hg
      have hr : readGroup (content ++ ')' :: (Connector.text k ++ rest)) =
          .ok (content, Connector.text k ++ rest) := readGroup_eq_ok_iff.mpr ⟨rfl, hg⟩
      simp only [connector] at hk
      simp [read, print, hr, hk, bind, Except.bind, pure, Except.pure]
    | atom text k =>
      obtain ⟨hne, ho, hc, hf, hap⟩ := hg
      have hs : Connector.span (text ++ (Connector.text k ++ rest)) =
          (text, Connector.text k ++ rest) := by
        refine Connector.span_eq_iff.mpr
          ⟨rfl, ⟨hf, (Connector.apart_text_append_iff hl).mpr hap⟩, ?_⟩
        cases k with
        | none => exact .inl (hl.mp rfl)
        | some k => simp [Connector.text, Connector.lead?_token_append]
      have hr := readAtom_eq_ok_iff.mpr ⟨hs, hne, ho, hc⟩
      have hh : (text ++ (Connector.text k ++ rest)).head? ≠ some '(' := by
        obtain ⟨c, cs, rfl⟩ := List.exists_cons_of_ne_nil hne
        simp_all [eq_comm]
      simp only [connector] at hk
      rw [print, List.append_assoc, read_eq_of_head?_ne hh, hr]
      simp [hk, bind, Except.bind, pure, Except.pure]

end Segment

namespace Scan

variable {g : Segment} {gs : List Segment}

theorem of_nil : Scan.of grouping [] = ⟨[], none⟩ := by
  rw [Scan.of]
  rfl

theorem of_eq_nil_iff : Scan.of grouping s = ⟨[], none⟩ ↔ s = [] := by
  constructor
  · intro h
    rw [Scan.of] at h
    split at h
    · next hn => exact next_eq_none_iff.mp hn
    · cases h
    · cases h
  · rintro rfl
    exact of_nil

theorem of_eq_cons_iff :
    Scan.of grouping s = ⟨g :: gs, none⟩ ↔
      ∃ rest, Segment.read grouping s = .ok (g, rest) ∧ Scan.of grouping rest = ⟨gs, none⟩ := by
  constructor
  · intro h
    rw [Scan.of] at h
    split at h
    · cases h
    · cases h
    · next g' rest hn =>
      obtain ⟨⟨rfl, hs⟩, hf⟩ :
          (g' = g ∧ (Scan.of grouping rest).segments = gs) ∧
            (Scan.of grouping rest).fault = none := by
        simpa using h
      exact ⟨rest, next_eq_ok_iff.mp hn, by rw [← hs, ← hf]⟩
  · rintro ⟨rest, hr, ht⟩
    have hn := next_eq_ok_iff.mpr hr
    rw [Scan.of]
    split <;> simp_all

/-- A whole scan: the units make up the text, each of them can be found, and connectors stand
between them. -/
theorem of_eq_iff :
    Scan.of grouping s = ⟨gs, none⟩ ↔
      s = (gs.map Segment.print).flatten ∧ (∀ g ∈ gs, g.Scannable grouping) ∧
        Connector.Linked (gs.map Segment.connector) := by
  induction gs generalizing s with
  | nil => simpa [Connector.Linked] using of_eq_nil_iff
  | cons g gs ih =>
    have hnil : (∀ g ∈ gs, g.Scannable grouping) →
        ((gs.map Segment.print).flatten = [] ↔ gs.map Segment.connector = []) := by
      intro h
      cases gs with
      | nil => simp
      | cons g' gs' => simp [Segment.print_ne_nil (h g' List.mem_cons_self)]
    simp only [of_eq_cons_iff, Segment.read_eq_ok_iff, ih, List.map_cons, List.flatten_cons,
      List.forall_mem_cons, Connector.linked_cons_iff]
    constructor
    · rintro ⟨rest, ⟨rfl, hg, hk⟩, rfl, hgs, hl⟩
      exact ⟨rfl, ⟨hg, hgs⟩, hk.trans (hnil hgs), hl⟩
    · rintro ⟨rfl, ⟨hg, hgs⟩, hk, hl⟩
      exact ⟨_, ⟨rfl, hg, hk.trans (hnil hgs).symm⟩, rfl, hgs, hl⟩

end Scan

end FilterLang
