import FilterLang.Session
import Mathlib.Algebra.Ring.Parity
import Mathlib.Data.List.Induction

/-! Sessions over any sequence of lines. A line changes at most one setting, and each setting
follows from the arguments that its own command was given. -/
namespace FilterLang

namespace Command

variable {line word : Text} {lines : List Text}

/-- The text before the first space, or else the whole line. -/
def wordOf (line : Text) : Text := line.takeWhile (· ≠ ' ')

/-- The text behind the first space, without the blanks around it. -/
def argumentOf (line : Text) : Text := Text.trim ((line.dropWhile (· ≠ ' ')).drop 1)

/-- The arguments that the lines give to a command, in their order. -/
def given (word : Text) (lines : List Text) : List Text :=
  (lines.filter (wordOf · = word)).map argumentOf

/-- The words of the commands that change a setting. -/
def settingWords : List Text :=
  [":target".toList, ":count".toList, ":args".toList, ":search".toList, ":json".toList]

/-- The commands that only print. -/
def Prints : Command → Prop
  | quit | help | targets | conditions _ | unknown _ | filter _ => True
  | target _ | count | args | search _ | json => False

theorem not_mem_settingWords_iff : word ∉ settingWords ↔
    word ≠ ":target".toList ∧ word ≠ ":count".toList ∧ word ≠ ":args".toList ∧
      word ≠ ":search".toList ∧ word ≠ ":json".toList := by
  simp only [settingWords, List.mem_cons, List.not_mem_nil, or_false, not_or, ne_eq]

theorem search_ne_target : ":search".toList ≠ ":target".toList := by
  decide

theorem cut?_space (line : Text) :
    (Text.cut? [' '] line).getD (line, []) =
      (wordOf line, (line.dropWhile (· ≠ ' ')).drop 1) := by
  induction line with
  | nil => rfl
  | cons c line ih =>
    by_cases hc : c = ' '
    · simp [hc, Text.cut?, wordOf]
    · have hp : [' '].isPrefixOf (c :: line) = false := by simp [List.isPrefixOf, Ne.symm hc]
      have hword : wordOf (c :: line) = c :: wordOf line := by simp [wordOf, hc]
      have hrest : (c :: line).dropWhile (· ≠ ' ') = line.dropWhile (· ≠ ' ') := by simp [hc]
      rw [Text.cut?, hp, if_neg Bool.false_ne_true, hword, hrest]
      cases hcut : Text.cut? [' '] line with
      | none =>
        rw [hcut] at ih
        obtain ⟨hw, hr⟩ := Prod.mk.inj ih
        exact congrArg₂ Prod.mk (congrArg (c :: ·) hw) hr
      | some parts =>
        rw [hcut] at ih
        obtain rfl : parts = _ := ih
        rfl

theorem parse_target (h : wordOf line = ":target".toList) :
    parse line = .target (argumentOf line) := by
  unfold parse
  rw [cut?_space, h]
  rfl

theorem parse_search (h : wordOf line = ":search".toList) :
    parse line = .search (argumentOf line) := by
  unfold parse
  rw [cut?_space, h]
  rfl

theorem prints_parse (h : wordOf line ∉ settingWords) : (parse line).Prints := by
  obtain ⟨htarget, hcount, hargs, hsearch, hjson⟩ := not_mem_settingWords_iff.mp h
  unfold parse
  rw [cut?_space]
  dsimp only
  rw [if_neg htarget, if_neg hcount, if_neg hargs, if_neg hsearch, if_neg hjson]
  repeat' split
  all_goals trivial

@[simp] theorem given_nil (word : Text) : given word [] = [] := rfl

theorem given_concat_of_eq (h : wordOf line = word) :
    given word (lines ++ [line]) = given word lines ++ [argumentOf line] := by
  simp [given, h]

theorem given_concat_of_ne (h : wordOf line ≠ word) :
    given word (lines ++ [line]) = given word lines := by
  simp [given, h]

end Command

namespace Registry

variable {r : Registry} {name first : Text}

theorem mem_targets_iff : name ∈ r.targets ↔ ∃ fields, r.fieldMap name = .ok fields := by
  rw [targets, Std.TreeMap.mem_keys, Std.TreeMap.mem_iff_isSome_getElem?, fieldMap, model?]
  cases r.models[name]? <;> simp

/-- No target comes before the first in the order of their characters. -/
theorem compare_head_targets (h : r.targets.head? = some first) (hn : name ∈ r.targets) :
    (compare first name).isLE := by
  have hsorted : r.targets.Pairwise fun a b => compare a b = .lt := Std.TreeMap.ordered_keys
  obtain ⟨rest, hr⟩ := List.head?_eq_some_iff.mp h
  rw [hr] at hn hsorted
  rcases List.mem_cons.mp hn with rfl | hn
  · simp
  · simp [List.rel_of_pairwise_cons hsorted hn]

end Registry

/-- The settings that are either on or off. -/
inductive Toggle where
  | count
  | args
  | json
deriving DecidableEq

namespace Toggle

open Command

def word : Toggle → Text
  | count => ":count".toList
  | args => ":args".toList
  | json => ":json".toList

def command : Toggle → Command
  | count => .count
  | args => .args
  | json => .json

def isOn (s : Session) : Toggle → Bool
  | count => s.withCount
  | args => s.withArgs
  | json => s.json

def flip (s : Session) : Toggle → Session
  | count => { s with withCount := !s.withCount }
  | args => { s with withArgs := !s.withArgs }
  | json => { s with json := !s.json }

theorem word_ne_target (x : Toggle) : x.word ≠ ":target".toList := by
  cases x <;> decide

theorem word_ne_search (x : Toggle) : x.word ≠ ":search".toList := by
  cases x <;> decide

theorem word_mem_settingWords (x : Toggle) : x.word ∈ settingWords := by
  cases x <;> decide

theorem word_eq_word_iff {x y : Toggle} : x.word = y.word ↔ x = y := by
  cases x <;> cases y <;> decide

theorem parse_of_word {x : Toggle} {line : Text} (h : wordOf line = x.word) :
    parse line = x.command := by
  unfold parse
  rw [cut?_space, h]
  cases x <;> rfl

theorem session_run (quote : Sql.Quoting) (s : Session) (x : Toggle) :
    (s.run quote x.command).session = x.flip s := by
  cases x <;> rfl

theorem isOn_flip (s : Session) (x y : Toggle) :
    y.isOn (x.flip s) = (y.isOn s ^^ decide (x = y)) := by
  cases x <;> cases y <;> simp [isOn, flip]

end Toggle

namespace Session

open Command

variable {quote : Sql.Quoting} {registry : Registry} {s t : Session} {line : Text}

/-- What one line does to a session. -/
inductive Step (s : Session) (line : Text) : Session → Prop where
  | toggle (x : Toggle) : wordOf line = x.word → Step s line (x.flip s)
  | search : wordOf line = ":search".toList → Step s line { s with search := argumentOf line }
  | target {fields : FieldMap} : wordOf line = ":target".toList →
      s.registry.fieldMap (argumentOf line) = .ok fields →
      Step s line { s with target := argumentOf line, fields }
  | unknownTarget : wordOf line = ":target".toList → argumentOf line ∉ s.registry.targets →
      Step s line s
  | other : wordOf line ∉ settingWords → Step s line s

theorem session_run_of_prints {c : Command} (h : c.Prints) : (s.run quote c).session = s := by
  cases c with
  | quit | help | targets | unknown _ | filter _ => rfl
  | conditions filter =>
    rw [run]
    split <;> rfl
  | target _ | count | args | search _ | json => exact h.elim

theorem step_handle (quote : Sql.Quoting) (s : Session) (line : Text) :
    Step s line (s.handle quote line).session := by
  unfold handle
  by_cases hset : wordOf line ∈ settingWords
  · have htoggle (x : Toggle) (hw : wordOf line = x.word) :
        Step s line (s.run quote (parse line)).session := by
      rw [Toggle.parse_of_word hw, Toggle.session_run]
      exact .toggle x hw
    simp only [settingWords, List.mem_cons, List.not_mem_nil, or_false] at hset
    rcases hset with hw | hw | hw | hw | hw
    · rw [parse_target hw, run]
      split
      · next hfields => exact .target hw hfields
      · next hfields =>
        refine .unknownTarget hw ?_
        rw [Registry.mem_targets_iff]
        rintro ⟨fields, hok⟩
        cases hfields.symm.trans hok
    · exact htoggle .count hw
    · exact htoggle .args hw
    · rw [parse_search hw]
      exact .search hw
    · exact htoggle .json hw
  · rw [session_run_of_prints (prints_parse hset)]
    exact .other hset

theorem registry_step (h : Step s line t) : t.registry = s.registry := by
  cases h with
  | toggle x _ => cases x <;> rfl
  | search _ | target _ _ | unknownTarget _ _ | other _ => rfl

/-- The target and its fields change together or not at all. -/
theorem fields_step (h : Step s line t) (hs : s.registry.fieldMap s.target = .ok s.fields) :
    t.registry.fieldMap t.target = .ok t.fields := by
  cases h with
  | toggle x _ => cases x <;> exact hs
  | target _ hfields => exact hfields
  | search _ | unknownTarget _ _ | other _ => exact hs

theorem isOn_step (h : Step s line t) (x : Toggle) :
    x.isOn t = (x.isOn s ^^ decide (wordOf line = x.word)) := by
  have hkept (hne : wordOf line ≠ x.word) (ht : x.isOn t = x.isOn s) :
      x.isOn t = (x.isOn s ^^ decide (wordOf line = x.word)) := by
    rw [decide_eq_false hne, Bool.xor_false, ht]
  cases h with
  | toggle y hw => rw [Toggle.isOn_flip, hw, decide_eq_decide.mpr Toggle.word_eq_word_iff]
  | search hw => exact hkept (hw.trans_ne x.word_ne_search.symm) (by cases x <;> rfl)
  | target hw _ => exact hkept (hw.trans_ne x.word_ne_target.symm) (by cases x <;> rfl)
  | unknownTarget hw _ => exact hkept (hw.trans_ne x.word_ne_target.symm) rfl
  | other hw => exact hkept (ne_of_mem_of_not_mem x.word_mem_settingWords hw).symm rfl

theorem search_step (h : Step s line t) :
    t.search = if wordOf line = ":search".toList then argumentOf line else s.search := by
  cases h with
  | toggle x hw =>
    rw [if_neg (hw.trans_ne x.word_ne_search)]
    cases x <;> rfl
  | search hw => rw [if_pos hw]
  | target hw _ | unknownTarget hw _ => rw [if_neg (hw.trans_ne search_ne_target.symm)]
  | other hw =>
    obtain ⟨-, -, -, hsearch, -⟩ := not_mem_settingWords_iff.mp hw
    rw [if_neg hsearch]

theorem target_step (h : Step s line t) :
    t.target = if wordOf line = ":target".toList ∧ argumentOf line ∈ s.registry.targets then
      argumentOf line else s.target := by
  cases h with
  | toggle x hw =>
    rw [if_neg fun ht => x.word_ne_target (hw.symm.trans ht.1)]
    cases x <;> rfl
  | search hw => rw [if_neg fun ht => search_ne_target (hw.symm.trans ht.1)]
  | target hw hfields => rw [if_pos ⟨hw, Registry.mem_targets_iff.mpr ⟨_, hfields⟩⟩]
  | unknownTarget _ hn => rw [if_neg fun ht => hn ht.2]
  | other hw =>
    obtain ⟨htarget, -⟩ := not_mem_settingWords_iff.mp hw
    rw [if_neg fun ht => htarget ht.1]

theorem step_eq_self (h : Step s line t) (hn : wordOf line ∉ settingWords ∨
    wordOf line = ":target".toList ∧ argumentOf line ∉ s.registry.targets) : t = s := by
  cases h with
  | unknownTarget _ _ | other _ => rfl
  | toggle x hw =>
    rcases hn with hn | ⟨ht, -⟩
    · exact absurd (hw ▸ x.word_mem_settingWords) hn
    · exact absurd (hw.symm.trans ht) x.word_ne_target
  | search hw =>
    rcases hn with hn | ⟨ht, -⟩
    · obtain ⟨-, -, -, hsearch, -⟩ := not_mem_settingWords_iff.mp hn
      exact absurd hw hsearch
    · exact absurd (hw.symm.trans ht) search_ne_target
  | target hw hfields =>
    rcases hn with hn | ⟨-, hn⟩
    · obtain ⟨htarget, -⟩ := not_mem_settingWords_iff.mp hn
      exact absurd hw htarget
    · exact absurd (Registry.mem_targets_iff.mpr ⟨_, hfields⟩) hn

/-- The session that is left when the lines have been taken one by one. -/
def after (quote : Sql.Quoting) (s : Session) (lines : List Text) : Session :=
  lines.foldl (fun s line => (s.handle quote line).session) s

theorem step_after_concat (quote : Sql.Quoting) (s : Session) (lines : List Text) (line : Text) :
    Step (s.after quote lines) line (s.after quote (lines ++ [line])) := by
  have hlast : s.after quote (lines ++ [line]) =
      ((s.after quote lines).handle quote line).session := by
    simp only [after, List.foldl_append, List.foldl_cons, List.foldl_nil]
  rw [hlast]
  exact step_handle quote (s.after quote lines) line

theorem registry_after (quote : Sql.Quoting) (s : Session) (lines : List Text) :
    (s.after quote lines).registry = s.registry := by
  induction lines using List.reverseRecOn with
  | nil => rfl
  | append_singleton lines line ih => rw [registry_step (step_after_concat quote s lines line), ih]

theorem fields_after (quote : Sql.Quoting) (hs : s.registry.fieldMap s.target = .ok s.fields)
    (lines : List Text) :
    s.registry.fieldMap (s.after quote lines).target = .ok (s.after quote lines).fields := by
  rw [← registry_after quote s lines]
  induction lines using List.reverseRecOn with
  | nil => exact hs
  | append_singleton lines line ih => exact fields_step (step_after_concat quote s lines line) ih

/-- A toggle has changed exactly if its command came an odd number of times. -/
theorem isOn_after (quote : Sql.Quoting) (s : Session) (lines : List Text) (x : Toggle) :
    x.isOn (s.after quote lines) = (x.isOn s ^^ decide (Odd (given x.word lines).length)) := by
  induction lines using List.reverseRecOn with
  | nil => simp [after]
  | append_singleton lines line ih =>
    rw [isOn_step (step_after_concat quote s lines line), ih]
    by_cases hw : wordOf line = x.word
    · rw [given_concat_of_eq hw, List.length_append, List.length_singleton]
      simp only [hw, Nat.odd_add_one, decide_not, decide_true, Bool.xor_true, Bool.xor_not]
    · rw [given_concat_of_ne hw, decide_eq_false hw, Bool.xor_false]

/-- A setting that takes over each argument it accepts holds the last of these. -/
theorem last_accepted (get : Session → Text) (word : Text) (accepts : Text → Bool)
    (hstep : ∀ lines line, get (s.after quote (lines ++ [line])) =
      if wordOf line = word ∧ accepts (argumentOf line) then argumentOf line
      else get (s.after quote lines)) (lines : List Text) :
    get (s.after quote lines) = ((given word lines).filter accepts).getLast?.getD (get s) := by
  -- From the end, where the line that decides stands.
  induction lines using List.reverseRecOn with
  | nil => rfl
  | append_singleton lines line ih =>
    rw [hstep, ih]
    by_cases hw : wordOf line = word
    · rw [given_concat_of_eq hw, List.filter_append]
      cases ha : accepts (argumentOf line) <;> simp [hw, ha]
    · simp [given_concat_of_ne hw, hw]

theorem search_after (quote : Sql.Quoting) (s : Session) (lines : List Text) :
    (s.after quote lines).search = (given ":search".toList lines).getLast?.getD s.search := by
  rw [last_accepted search ":search".toList fun _ => true, List.filter_eq_self.mpr fun _ _ => rfl]
  intro lines line
  simp only [and_true]
  exact search_step (step_after_concat quote s lines line)

theorem target_after (quote : Sql.Quoting) (s : Session) (lines : List Text) :
    (s.after quote lines).target =
      ((given ":target".toList lines).filter (· ∈ s.registry.targets)).getLast?.getD s.target := by
  apply last_accepted target ":target".toList
  intro lines line
  rw [target_step (step_after_concat quote s lines line), registry_after]
  simp only [decide_eq_true_eq]

theorem start_eq_ok (h : start registry = .ok s) :
    s.registry = registry ∧ registry.targets.head? = some s.target ∧
      registry.fieldMap s.target = .ok s.fields ∧ (∀ x : Toggle, x.isOn s = false) ∧
      s.search = [] := by
  unfold start at h
  split at h
  · cases h
  · next first hfirst =>
    cases hfields : registry.fieldMap first with
    | error e =>
      rw [hfields] at h
      cases h
    | ok fields =>
      rw [hfields] at h
      cases h
      exact ⟨rfl, hfirst, hfields, fun x => by cases x <;> rfl, rfl⟩

end Session

open Command

/-- After any lines a session has the registry that it started with, one of its targets and the
fields of this target. The target is the last one given that is known, or else the first of all.
What is either on or off is on after an odd number of its commands, and the search text is the last
one given. A line with none of these commands changes nothing, and neither does an unknown
target. -/
theorem session_follows_commands (quote : Sql.Quoting) (registry : Registry) (s : Session)
    (lines : List Text) (h : Session.start registry = .ok s) :
    (s.after quote lines).registry = registry ∧
      (s.after quote lines).target ∈ registry.targets ∧
      registry.fieldMap (s.after quote lines).target = .ok (s.after quote lines).fields ∧
      (∃ first ∈ registry.targets, (∀ name ∈ registry.targets, (compare first name).isLE) ∧
        (s.after quote lines).target =
          ((given ":target".toList lines).filter (· ∈ registry.targets)).getLast?.getD first) ∧
      ((s.after quote lines).withCount ↔ Odd (given ":count".toList lines).length) ∧
      ((s.after quote lines).withArgs ↔ Odd (given ":args".toList lines).length) ∧
      ((s.after quote lines).json ↔ Odd (given ":json".toList lines).length) ∧
      (s.after quote lines).search = (given ":search".toList lines).getLast?.getD [] ∧
      ∀ line, wordOf line ∉ settingWords ∨
          wordOf line = ":target".toList ∧ argumentOf line ∉ registry.targets →
        ((s.after quote lines).handle quote line).session = s.after quote lines := by
  obtain ⟨rfl, hfirst, hfields, hoff, hsearch⟩ := Session.start_eq_ok h
  have hkept := Session.fields_after quote hfields lines
  have hregistry := Session.registry_after quote s lines
  have htoggle (x : Toggle) : x.isOn (s.after quote lines) ↔ Odd (given x.word lines).length := by
    rw [Session.isOn_after, hoff, Bool.false_xor, decide_eq_true_eq]
  refine ⟨hregistry, Registry.mem_targets_iff.mpr ⟨_, hkept⟩, hkept, ?_, htoggle .count,
    htoggle .args, htoggle .json, ?_, ?_⟩
  · exact ⟨s.target, Registry.mem_targets_iff.mpr ⟨_, hfields⟩,
      fun name hn => Registry.compare_head_targets hfirst hn, Session.target_after quote s lines⟩
  · rw [Session.search_after, hsearch]
  · intro line hn
    rw [← hregistry] at hn
    exact Session.step_eq_self (Session.step_handle quote _ line) hn

/-- The second of two targets is chosen and kept, the count is switched off again, and a space ends
a word even where nothing follows. -/
theorem session_follows_commands_mixed :
    ∃ s, Session.start (Registry.demo.insert "a".toList ⟨.empty, []⟩) = .ok s ∧
      let t := s.after .postgres [":count".toList, ":target  v_test ".toList,
        ":search a~~b c".toList, ":target b".toList, "?x==1?".toList, ":json".toList,
        ":counts".toList, ":count ".toList]
      t.target = "v_test".toList ∧ t.fields = Registry.demoFields ∧ ¬ t.withCount ∧
        ¬ t.withArgs ∧ t.json ∧ t.search = "a~~b c".toList ∧
        (t.handle .postgres ":target b".toList).session = t := by
  refine ⟨_, rfl, ?_⟩
  obtain ⟨-, -, hfields, ⟨first, -, -, htarget⟩, hcount, hargs, hjson, hsearch, hkept⟩ :=
    session_follows_commands _ (Registry.demo.insert "a".toList ⟨.empty, []⟩) _ [":count".toList,
      ":target  v_test ".toList, ":search a~~b c".toList, ":target b".toList, "?x==1?".toList,
      ":json".toList, ":counts".toList, ":count ".toList] rfl
  rw [htarget] at hfields
  exact ⟨htarget, (Except.ok.inj hfields).symm, hcount.not.mpr (by decide),
    hargs.not.mpr (by decide), hjson.mpr (by decide), hsearch, hkept _ (.inr (by decide))⟩

end FilterLang
