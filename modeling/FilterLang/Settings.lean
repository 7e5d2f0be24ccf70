import FilterLang.Charset

/-! The limits set on values. -/
namespace FilterLang

structure Settings where
  /-- The most characters that a text value may have. -/
  textCap : Nat
  conditionCharset : Charset
  searchCharset : Charset

def Settings.standard : Settings := ⟨48, .condition, .search⟩

end FilterLang
