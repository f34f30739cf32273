import Mathlib.Data.List.Basic
import MetricReporting.CommandLine.Course
import MetricReporting.Proofs.NameMaps
import MetricReporting.Proofs.SpanTexts
import MetricReporting.Proofs.TomlDocuments

namespace MetricReporting

namespace Config

theorem mapM_map_of_read {α β : Type} (make : α → β) (read : β → Option α) (h : ∀ a, read (make a) = some a)
    (l : List α) : (l.map make).mapM read = some l := by
  induction l with
  | nil => rfl
  | cons a rest ih => simp [List.mapM_cons, h, ih]

theorem texts?_list (texts : List String) : (Toml.Value.list (texts.map .text)).texts? = some texts :=
  mapM_map_of_read Toml.Value.text Toml.Value.text? (fun _ => rfl) texts

theorem tagSetting?_table (tags : Tags) :
    Overrides.tagSetting? (.table .header (tags.entries.map fun e => (e.1, .text e.2))) = some (.table tags) := by
  have htable : (Toml.Value.table .header (tags.entries.map fun e => (e.1, .text e.2))).textTable? =
      some tags.entries := by
    exact mapM_map_of_read (fun e => (e.1, Toml.Value.text e.2)) (fun e => e.2.text?.map fun s => (e.1, s))
      (fun _ => rfl) tags.entries
  rw [Overrides.tagSetting?, htable]
  simp [NameMap.ofList_entries]

section

variable [SpanWords]

theorem hasDistinctKeys_sheet (c : Config) : c.sheet.HasDistinctKeys where
  settings := by
    change ["rate_unit", "duration_unit", "skip_idle_metrics", "period", "include", "exclude"].Nodup
    decide
  table := by
    change "tags" ∉ ["rate_unit", "duration_unit", "skip_idle_metrics", "period", "include", "exclude"]
    decide
  rows := by
    apply List.pairwise_map.mpr
    refine c.tags.ascending.imp ?_
    intro a b hlt heq
    exact String.lt_irrefl _ (heq ▸ hlt)

def asOverrides (c : Config) : Overrides where
  tags := some (.table c.tags)
  rateUnit := some c.rateUnit.name
  durationUnit := some c.durationUnit.name
  skipIdle := some c.skipIdle
  period := some (SpanWords.render c.period)
  included := some c.included
  excluded := some c.excluded

theorem ofDocument?_sheet (c : Config) : Overrides.ofDocument? c.sheet.entries = some c.asOverrides := by
  have hrate : c.sheet.entries.get? "rate_unit" = some (.text c.rateUnit.name) := rfl
  have hduration : c.sheet.entries.get? "duration_unit" = some (.text c.durationUnit.name) := rfl
  have hskip : c.sheet.entries.get? "skip_idle_metrics" = some (.flag c.skipIdle) := rfl
  have hperiod : c.sheet.entries.get? "period" = some (.text (SpanWords.render c.period)) := rfl
  have hincluded : c.sheet.entries.get? "include" = some (.list (c.included.map .text)) := rfl
  have hexcluded : c.sheet.entries.get? "exclude" = some (.list (c.excluded.map .text)) := rfl
  have htags : c.sheet.entries.get? "tags" =
      some (.table .header (c.tags.entries.map fun e => (e.1, .text e.2))) := rfl
  simp only [Overrides.ofDocument?, Overrides.setting, hrate, hduration, hskip, hperiod, hincluded, hexcluded, htags,
    tagSetting?_table, texts?_list, Toml.Value.text?, Toml.Value.flag?]
  rfl

theorem apply_asOverrides [LawfulSpanWords] {c : Config} (hperiod : c.period.isZero = false)
    (hfits : c.period.seconds < Nat.pow 2 64) (source : Source) (otherwise : Config) :
    c.asOverrides.apply source otherwise = .ok c := by
  have hrate := TimeUnit.parse_name c.rateUnit
  have hduration := TimeUnit.parse_name c.durationUnit
  have hparse := LawfulSpanWords.parse_render c.period hfits
  simp only [Overrides.apply, asOverrides, Overrides.tagsOver, Overrides.unit, Overrides.periodOver, Span.read, hrate,
    hduration, hparse, Except.mapError, Option.getD_some, bind, Except.bind, hperiod, Bool.false_eq_true, if_false]
  rfl

/-- The printed text is read as the configuration that it was printed from, whatever its strings hold. The seconds of
any length of time are a 64-bit word. -/
theorem survives_printing [Globs] [TomlFormat] [FloatFormat] [LawfulSpanWords] [LawfulToml] (c : Config)
    (hperiod : c.period.isZero = false) (hfits : c.period.seconds < Nat.pow 2 64) :
    ∃ text, CommandLine.Course.ofCommand .showConfig c = .exit 0 text "" ∧
      ∀ (s : Surroundings) (path : String), s.file path = .bytes text.toUTF8 → ofFile s path = .ok c := by
  refine ⟨c.toSpreadToml, rfl, ?_⟩
  intro s path hfile
  have hdecode : String.fromUTF8? c.toSpreadToml.toUTF8 = some c.toSpreadToml := dif_pos c.toSpreadToml.isValidUTF8
  have hparse : TomlFormat.parse? c.toSpreadToml = some c.sheet.entries :=
    LawfulToml.parse?_writeSpread c.hasDistinctKeys_sheet
  have htoml : Overrides.ofToml? c.toSpreadToml = some c.asOverrides := by
    rw [Overrides.ofToml?, hparse]
    exact ofDocument?_sheet c
  have hoverrides : fileOverrides s path = .ok (some c.asOverrides) := by
    simp only [fileOverrides, hfile, hdecode, htoml]
  simp only [ofFile, hoverrides, bind, Except.bind]
  exact apply_asOverrides hperiod hfits .file {}

end

theorem survives_printing_with_wild_strings :
    let c : Config :=
      { rateUnit := .days, durationUnit := .nanoseconds, skipIdle := true
        period := ⟨34281356123456789⟩
        included := ["", "a\nb'''c\\", "\"\"\"\"\"\r\n", "\u0000\u007f\t"]
        excluded := ["#[x]=\"y\", "]
        tags := .ofList [("", "\n"), ("a b", "'\"'"), ("tags", "é"), ("x.y", "\\u0041")] }
    c.period.isZero = false ∧ c.period.seconds < Nat.pow 2 64 ∧
      ofFile { lookUp := fun _ => none, file := fun _ => .bytes c.toSpreadToml.toUTF8 } "config.toml" = .ok c := by
  intro c
  have hperiod : c.period.isZero = false := by decide +kernel
  have hfits : c.period.seconds < Nat.pow 2 64 := by decide +kernel
  obtain ⟨text, hprint, hread⟩ := survives_printing c hperiod hfits
  obtain ⟨-, htext, -⟩ := CommandLine.Course.exit.inj hprint
  refine ⟨hperiod, hfits, hread _ _ ?_⟩
  rw [← htext]

end Config

end MetricReporting
