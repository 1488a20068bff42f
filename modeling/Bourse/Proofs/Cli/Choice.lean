import Bourse.Cli.Options
import Bourse.Proofs.Config.Periods
import Bourse.Proofs.Datum

/-! Requests that are asked for in two ways: by the options of a command, and by the entries of a
configuration. An option overrides what the request starts from when it is given, and an entry when
it is there, so the same settings lead to the same request. -/
namespace Bourse

/-- A setting that can be given as an option and as an entry. -/
inductive Setting where
  | all (on : Bool)
  | sma (text : String)
  | ema (text : String)
  | wma (text : String)
  | rsi (period : Int)
  | macd
  | stochastic
  | bands (period : Int)
  | bandWidth (width : Float)
  | atr (period : Int)
  | adx (period : Int)
  | obv
  | vwap

namespace Setting

open Cli (IndicatorChoice)

/-- The name of the entry for a setting. -/
def name : Setting → String
  | all _ => "all"
  | sma _ => "sma"
  | ema _ => "ema"
  | wma _ => "wma"
  | rsi _ => "rsi"
  | macd => "macd"
  | stochastic => "stochastic"
  | bands _ => "bb"
  | bandWidth _ => "bb_std_dev"
  | atr _ => "atr"
  | adx _ => "adx"
  | obv => "obv"
  | vwap => "vwap"

/-- The value of the entry for a setting. -/
def datum : Setting → Datum
  | all on => .bool on
  | sma text | ema text | wma text => .text text
  | rsi period | bands period | atr period | adx period => .int period
  | bandWidth width => .real width
  | macd | stochastic | obv | vwap => .bool true

def entry (setting : Setting) : Datum × Datum := (.text setting.name, setting.datum)

/-- What the option for a setting does to a choice. -/
def choose (choice : IndicatorChoice) : Setting → IndicatorChoice
  | all on => { choice with all := on }
  | sma text => { choice with sma := some text }
  | ema text => { choice with ema := some text }
  | wma text => { choice with wma := some text }
  | rsi period => { choice with rsi := some period }
  | macd => { choice with macd := true }
  | stochastic => { choice with stochastic := true }
  | bands period => { choice with bands := some period }
  | bandWidth width => { choice with bandWidth := width }
  | atr period => { choice with atr := some period }
  | adx period => { choice with adx := some period }
  | obv => { choice with obv := true }
  | vwap => { choice with vwap := true }

/-- The choice that the options for some settings make. -/
def choice (settings : List Setting) : IndicatorChoice := settings.foldl choose {}

variable {settings : List Setting}

/-! What stands under a name -/

/-- What a choice shows under a name is what the entries have there, and without such an entry what
it was. -/
theorem view_foldl_choose (view : IndicatorChoice → Option Datum) (name : String)
    (hview : ∀ choice (setting : Setting), view (choose choice setting) =
      if setting.name = name then some setting.datum else view choice)
    (hdistinct : (settings.map Setting.name).Nodup) (start : IndicatorChoice) :
    view (settings.foldl choose start) =
      (Datum.get? (settings.map entry) name).or (view start) := by
  induction settings generalizing start with
  | nil => rfl
  | cons setting rest ih =>
    obtain ⟨hnew, hrest⟩ := List.nodup_cons.mp hdistinct
    rw [List.foldl_cons, ih hrest, hview, List.map_cons, entry, Datum.get?_cons_text]
    split_ifs with hname
    · -- no later entry has the name again
      have habsent : Datum.get? (rest.map entry) name = none := by
        rw [Datum.get?, Option.map_eq_none_iff, List.find?_eq_none]
        intro other hother hsame
        obtain ⟨later, hlater, rfl⟩ := List.mem_map.mp hother
        have hsameName : later.name = name := of_decide_eq_true hsame
        exact hnew (hname.trans hsameName.symm ▸ List.mem_map_of_mem hlater)
      rw [habsent, Option.none_or, Option.some_or]
    · rfl

theorem isTrue_get?_all (hdistinct : (settings.map Setting.name).Nodup) :
    ((Datum.get? (settings.map entry) "all").map (·.isTrue)).getD false =
      (choice settings).all := by
  have hview := view_foldl_choose (fun choice => some (.bool choice.all)) "all"
    (fun _ setting => by cases setting <;> rfl) hdistinct {}
  cases hfound : Datum.get? (settings.map entry) "all" with
  | none =>
    rw [hfound, Option.none_or] at hview
    exact (Datum.bool.inj (Option.some.inj hview)).symm
  | some value =>
    rw [hfound, Option.some_or] at hview
    rw [← Option.some.inj hview]
    rfl

/-- The text of a list that is chosen stands under the name of the list. -/
theorem get?_text (text? : IndicatorChoice → Option String) (name : String)
    (hview : ∀ choice (setting : Setting), (text? (choose choice setting)).map Datum.text =
      if setting.name = name then some setting.datum else (text? choice).map Datum.text)
    (hempty : text? {} = none) (hdistinct : (settings.map Setting.name).Nodup) :
    Datum.get? (settings.map entry) name = (text? (choice settings)).map Datum.text := by
  have hfold := view_foldl_choose (fun choice => (text? choice).map .text) name hview hdistinct {}
  rw [hempty, Option.map_none, Option.or_none] at hfold
  exact hfold.symm

end Setting

/-- What a choice makes of a request: what is chosen overrides what the request has. The lists of
periods stay. -/
def Cli.IndicatorChoice.over (choice : Cli.IndicatorChoice) (base : Request) : Request :=
  { base with
    rsi := choice.rsi <|> base.rsi
    macd := choice.macd || base.macd
    stochastic := choice.stochastic || base.stochastic
    bands := choice.bands <|> base.bands
    bandWidth := choice.bandWidth
    atr := choice.atr <|> base.atr
    adx := choice.adx <|> base.adx
    obv := choice.obv || base.obv
    vwap := choice.vwap || base.vwap }

/-- The request of a choice is the choice made over its lists of periods. -/
theorem Cli.IndicatorChoice.request_eq (choice : Cli.IndicatorChoice) : choice.request = (do
    let base : Request := if choice.all then Request.usual else {}
    let sma ← periods "sma" choice.sma base.sma
    let ema ← periods "ema" choice.ema base.ema
    let wma ← periods "wma" choice.wma base.wma
    return choice.over { base with sma, ema, wma }) :=
  rfl

namespace Setting

open Cli (IndicatorChoice)

/-- The fields of a request that some settings set one by one: all but those that are looked up. -/
def fields (settings : List Setting) : List (String × Datum) :=
  (settings.filter fun setting => !("all" :: Config.listNames).contains setting.name).map
    fun setting => (setting.name, setting.datum)

theorem named?_filter_entries (settings : List Setting) :
    Request.named? ((settings.map entry).filter fun entry =>
      !Config.isNamed ("all" :: Config.listNames) entry) = some (fields settings) := by
  have hnamed (given : List Setting) : Request.named? (given.map entry) =
      some (given.map fun setting => (setting.name, setting.datum)) := by
    induction given with
    | nil => rfl
    | cons setting rest ih =>
      rw [List.map_cons, entry, Request.named?, ih]
      rfl
  rw [List.filter_map, hnamed]
  rfl

/-- One step: an entry changes the request of a choice as its option changes the choice. -/
theorem set_over {setting : Setting}
    (h : ("all" :: Config.listNames).contains setting.name = false) (choice : IndicatorChoice)
    (base : Request) : (choice.over base).set setting.name setting.datum =
      .ok ((choose choice setting).over base) := by
  cases setting with
  | all | sma | ema | wma => cases h
  | rsi | macd | stochastic | bands | bandWidth | atr | adx | obv | vwap => rfl

theorem over_choose {setting : Setting}
    (h : ("all" :: Config.listNames).contains setting.name = true) (choice : IndicatorChoice)
    (base : Request) : (choose choice setting).over base = choice.over base := by
  cases setting with
  | all | sma | ema | wma => rfl
  | rsi | macd | stochastic | bands | bandWidth | atr | adx | obv | vwap => cases h

/-- A run: entries one after another change the request of a choice as the options do. -/
theorem setAll_over (settings : List Setting) (start : IndicatorChoice) (base : Request) :
    (start.over base).setAll (fields settings) = ((settings.foldl choose start).over base, []) := by
  induction settings generalizing start with
  | nil => rfl
  | cons setting rest ih =>
    have hrest := ih (choose start setting)
    unfold fields at hrest ⊢
    rw [List.foldl_cons, List.filter_cons]
    cases h : ("all" :: Config.listNames).contains setting.name with
    | true =>
      rw [over_choose h] at hrest
      exact hrest
    | false =>
      rw [Bool.not_false, if_pos rfl, List.map_cons, Request.setAll, set_over h]
      exact hrest

theorem over_empty {base : Request} (h : base.bandWidth = 2) :
    ({} : IndicatorChoice).over base = base := by
  cases base
  cases h
  rfl

theorem ofEntries_rest (settings : List Setting) {base : Request} (h : base.bandWidth = 2) :
    Request.ofEntries ((settings.map entry).filter fun entry =>
      !Config.isNamed ("all" :: Config.listNames) entry) base =
        .ok ((choice settings).over base) := by
  have hset := setAll_over settings {} base
  rw [over_empty h] at hset
  rw [Request.ofEntries, named?_filter_entries]
  dsimp only
  rw [hset]
  rfl

end Setting

/-! Lists of periods -/

namespace Config

variable {name text : String}

/-- The parts of a text that lists periods: what stands between commas, without the blanks around
it. -/
def parts (text : String) : List (List Char) := (Text.split (· == ',') text.toList).map Text.trim

/-- Whether a text has something beside commas and blanks. -/
def HasPart (text : String) : Prop := ∃ part ∈ parts text, part ≠ []

/-- Whether a text lists integers of at least one. -/
def ListsPeriods (text : String) : Prop :=
  ∀ part ∈ parts text, part ≠ [] → ∃ n ∈ Numeral.integer? part, 1 ≤ n

theorem length_of_toPeriods {items : List Datum} {periods : List Int}
    (h : toPeriods name items = .ok periods) : periods.length = items.length := by
  induction items generalizing periods with
  | nil =>
    cases h
    rfl
  | cons item rest ih =>
    rw [toPeriods_cons] at h
    obtain ⟨n, -, h⟩ := bind_eq_ok_iff.mp h
    obtain ⟨more, hmore, h⟩ := bind_eq_ok_iff.mp h
    cases h
    rw [List.length_cons, List.length_cons, ih hmore]

theorem ne_nil_of_periodList {periods : List Int} (hpart : HasPart text)
    (h : periodList name (.text text) = .ok periods) : periods ≠ [] := by
  obtain ⟨part, hmem, hne⟩ := hpart
  obtain ⟨items, hitems, h⟩ := bind_eq_ok_iff.mp h
  cases hitems
  have hkept : part ∈ (parts text).filter (!·.isEmpty) :=
    List.mem_filter.mpr ⟨hmem, by simpa using hne⟩
  have hlength := length_of_toPeriods h
  rw [← List.length_pos_iff, hlength, List.length_map]
  exact List.length_pos_of_mem hkept

theorem succeeds_periodList (h : ListsPeriods text) :
    Succeeds (periodList name (.text text)) := by
  refine succeeds_bind_iff.mpr ⟨_, rfl, ?_⟩
  rw [succeeds_iff_ne_error]
  intro e he
  apply exists_firstFailure.mp ⟨e, toPeriods_eq_error_iff.mp he⟩
  intro item hitem
  obtain ⟨part, hpart, rfl⟩ := List.mem_map.mp hitem
  obtain ⟨hmem, hne⟩ := List.mem_filter.mp hpart
  obtain ⟨n, hn, hpos⟩ := h part hmem (by simpa using hne)
  have hread : toPeriod name (.text (String.ofList part)) = .ok n := by
    rw [toPeriod, String.toList_ofList, hn]
  refine ⟨n, ?_⟩
  rw [period, hread]
  exact if_neg (Int.not_lt.mpr hpos)

end Config

namespace Cli.IndicatorChoice

variable {name : String} {text : Option String} {usual : List Int}

/-- A list that is looked up among entries is the list that is chosen, if it lists something. -/
theorem periodsOr_eq {entries : List (Datum × Datum)}
    (hentry : Datum.get? entries name = text.map Datum.text)
    (hpart : ∀ given ∈ text, Config.HasPart given) :
    Config.periodsOr usual entries name = (periods name text usual).mapError .periods := by
  rw [Config.periodsOr, hentry]
  cases text with
  | none => rfl
  | some given =>
    simp only [periods, Option.map_some, Option.getD_some]
    cases hlist : Config.periodList name (.text given) with
    | error e => rfl
    | ok found =>
      have hne : found.isEmpty = false :=
        List.isEmpty_eq_false_iff.mpr (Config.ne_nil_of_periodList (hpart given rfl) hlist)
      simp only [Except.mapError, bind, Except.bind, hne]
      rfl

theorem succeeds_periods (h : ∀ given ∈ text, Config.ListsPeriods given) :
    Succeeds (periods name text usual) := by
  rw [periods, succeeds_bind_pure_iff]
  cases text with
  | none => exact succeeds_ok []
  | some given => exact Config.succeeds_periodList (h given rfl)

end Cli.IndicatorChoice

/-! Options and entries -/

namespace Setting

open Cli (IndicatorChoice)
open Cli.IndicatorChoice (periods periodsOr_eq succeeds_periods)

variable {settings : List Setting}

theorem exists_of_get? {name : String} {value : Datum}
    (h : Datum.get? (settings.map entry) name = some value) :
    ∃ setting ∈ settings, setting.datum = value := by
  obtain ⟨found, hfind, rfl⟩ := Option.map_eq_some_iff.mp h
  obtain ⟨setting, hmem, rfl⟩ := List.mem_map.mp (List.mem_of_find?_eq_some hfind)
  exact ⟨setting, hmem, rfl⟩

/-- Whether the lists of periods among some settings are of a kind. -/
def TextsAre (kind : String → Prop) (settings : List Setting) : Prop :=
  ∀ setting ∈ settings, ∀ text, setting.datum = .text text → kind text

theorem TextsAre.of_get? {kind : String → Prop} (h : TextsAre kind settings) {name : String}
    {text : Option String} (hentry : Datum.get? (settings.map entry) name = text.map Datum.text) :
    ∀ given ∈ text, kind given := by
  intro given hgiven
  rw [hgiven, Option.map_some] at hentry
  obtain ⟨setting, hmem, hdatum⟩ := exists_of_get? hentry
  exact h setting hmem given hdatum

theorem get?_lists (hdistinct : (settings.map Setting.name).Nodup) :
    Datum.get? (settings.map entry) "sma" = (choice settings).sma.map .text ∧
      Datum.get? (settings.map entry) "ema" = (choice settings).ema.map .text ∧
      Datum.get? (settings.map entry) "wma" = (choice settings).wma.map .text := by
  refine ⟨?_, ?_, ?_⟩
  · exact get?_text (·.sma) "sma" (fun _ setting => by cases setting <;> rfl) rfl hdistinct
  · exact get?_text (·.ema) "ema" (fun _ setting => by cases setting <;> rfl) rfl hdistinct
  · exact get?_text (·.wma) "wma" (fun _ setting => by cases setting <;> rfl) rfl hdistinct

theorem buildRequest_entries (hdistinct : (settings.map Setting.name).Nodup)
    (hparts : TextsAre Config.HasPart settings) :
    Config.buildRequest (.mapping (settings.map entry)) =
      (choice settings).request.mapError .periods := by
  obtain ⟨hsma, hema, hwma⟩ := get?_lists hdistinct
  rw [IndicatorChoice.request_eq, Config.buildRequest, isTrue_get?_all hdistinct]
  -- both start from the same request, whose width is the one that a choice starts from
  generalize hbase : (if (choice settings).all then Request.usual else ({} : Request)) = base
  have hwidth : base.bandWidth = 2 := by
    rw [← hbase]
    split_ifs <;> rfl
  dsimp only
  rw [periodsOr_eq hsma (hparts.of_get? hsma), periodsOr_eq hema (hparts.of_get? hema),
    periodsOr_eq hwma (hparts.of_get? hwma)]
  -- the lists are read in the same order, so the first that fails is the same
  cases periods "sma" (choice settings).sma base.sma with
  | error e => rfl
  | ok sma =>
    cases periods "ema" (choice settings).ema base.ema with
    | error e => rfl
    | ok ema =>
      cases periods "wma" (choice settings).wma base.wma with
      | error e => rfl
      | ok wma =>
        have hlisted : ({ base with sma, ema, wma } : Request).bandWidth = 2 := hwidth
        simp only [Except.mapError, bind, Except.bind]
        rw [ofEntries_rest settings hlisted]
        rfl

theorem succeeds_request (hdistinct : (settings.map Setting.name).Nodup)
    (hlists : TextsAre Config.ListsPeriods settings) : Succeeds (choice settings).request := by
  obtain ⟨hsma, hema, hwma⟩ := get?_lists hdistinct
  rw [IndicatorChoice.request_eq]
  apply (succeeds_bind_const_iff fun sma => succeeds_bind_const_iff fun ema =>
    succeeds_bind_pure_iff).mpr
  refine ⟨?_, ?_, ?_⟩
  · exact succeeds_periods (hlists.of_get? hsma)
  · exact succeeds_periods (hlists.of_get? hema)
  · exact succeeds_periods (hlists.of_get? hwma)

/-- The same settings, each given once and in any order, have the same outcome as options and as
entries of a configuration, if every list of periods has something beside commas and blanks. Where
the lists are of integers of at least one, the outcome is a request. -/
theorem options_and_entries_agree (hdistinct : (settings.map Setting.name).Nodup)
    (hparts : TextsAre Config.HasPart settings) :
    Config.buildRequest (.mapping (settings.map entry)) =
        (choice settings).request.mapError .periods ∧
      (TextsAre Config.ListsPeriods settings →
        ∃ request, (choice settings).request = .ok request ∧
          Config.buildRequest (.mapping (settings.map entry)) = .ok request) := by
  have hagree := buildRequest_entries hdistinct hparts
  refine ⟨hagree, ?_⟩
  intro hlists
  obtain ⟨request, hrequest⟩ := succeeds_request hdistinct hlists
  refine ⟨request, hrequest, ?_⟩
  rw [hagree, hrequest]
  rfl

/-- Every indicator, but with two other lists, a period of zero and one below, and another width. -/
theorem overridden_defaults_agree :
    let settings : List Setting := [.bands (-5), .sma "20, 50,,200 ", .all true, .rsi 0,
      .bandWidth 2.5, .wma "+10"]
    ((settings.map Setting.name).Nodup ∧ TextsAre Config.HasPart settings ∧
      TextsAre Config.ListsPeriods settings) ∧
    ∃ request, (choice settings).request = .ok request ∧
      Config.buildRequest (.mapping (settings.map entry)) = .ok request := by
  intro settings
  have htexts {kind : String → Prop} (hsma : kind "20, 50,,200 ") (hwma : kind "+10") :
      TextsAre kind settings := by
    intro setting hmem text hdatum
    simp only [settings, List.mem_cons, List.not_mem_nil, or_false] at hmem
    rcases hmem with rfl | rfl | rfl | rfl | rfl | rfl <;> cases hdatum
    · exact hsma
    · exact hwma
  have hdistinct : (settings.map Setting.name).Nodup := by decide
  have hparts : TextsAre Config.HasPart settings := by
    unfold Config.HasPart
    exact htexts (by decide +kernel) (by decide +kernel)
  have hlists : TextsAre Config.ListsPeriods settings := by
    unfold Config.ListsPeriods
    exact htexts (by decide +kernel) (by decide +kernel)
  exact ⟨⟨hdistinct, hparts, hlists⟩, (options_and_entries_agree hdistinct hparts).2 hlists⟩

end Setting

end Bourse
