import Bourse.Indicator.Report
import Bourse.Proofs.Entries
import Bourse.Proofs.Indicator.Refusal

/-! Indicators that are computed together. A request is a list of items, each of which has a label,
names for its lines and a call of its own. No two items of a request share a name or a label, so the
report shows of each item exactly what its call gives, whatever else is wanted. There is a report as
long as every period can be written out, and every number of values that is to be named. -/
namespace Bourse.Indicator

open Entries

/-- An indicator that is wanted, with its periods. -/
inductive Item where
  | sma (period : Int)
  | ema (period : Int)
  | wma (period : Int)
  | rsi (period : Int)
  | macd
  | stochastic
  | bands (period : Int) (width : Float)
  | atr (period : Int)
  | adx (period : Int)
  | obv
  | vwap

/-- The items of a request in the order in which they are reported. -/
def items (r : Request) : List Item :=
  r.sma.map Item.sma ++ r.ema.map Item.ema ++ r.wma.map Item.wma ++ r.rsi.toList.map Item.rsi ++
    (if r.macd then [Item.macd] else []) ++ (if r.stochastic then [Item.stochastic] else []) ++
    r.bands.toList.map (fun period => Item.bands period r.bandWidth) ++
    r.atr.toList.map Item.atr ++ r.adx.toList.map Item.adx ++ (if r.obv then [Item.obv] else []) ++
    (if r.vwap then [Item.vwap] else [])

namespace Item

/-- The label under which an item is refused. -/
def label : Item → String
  | sma period => s!"SMA({period})"
  | ema period => s!"EMA({period})"
  | wma period => s!"WMA({period})"
  | rsi period => s!"RSI({period})"
  | macd => "MACD"
  | stochastic => "Stochastic"
  | bands period _ => s!"Bollinger Bands({period})"
  | atr period => s!"ATR({period})"
  | adx period => s!"ADX({period})"
  | obv => "OBV"
  | vwap => "VWAP"

/-- The names of the lines of an item. -/
def names : Item → List String
  | sma period => [s!"sma_{period}"]
  | ema period => [s!"ema_{period}"]
  | wma period => [s!"wma_{period}"]
  | rsi period => [s!"rsi_{period}"]
  | macd => ["macd", "macd_signal", "macd_histogram"]
  | stochastic => ["stoch_k", "stoch_d"]
  | bands _ _ => ["bb_upper", "bb_middle", "bb_lower"]
  | atr period => [s!"atr_{period}"]
  | adx period => [s!"adx_{period}"]
  | obv => ["obv"]
  | vwap => ["vwap"]

/-- The lines that the call of an item alone gives for some bars. -/
def lines (bars : List (Bar Float)) : Item → Except Failure (List (List Float))
  | sma period => (Indicator.sma (bars.map (·.close)) period).map fun line => [line]
  | ema period => (Indicator.ema (bars.map (·.close)) period).map fun line => [line]
  | wma period => (Indicator.wma (bars.map (·.close)) period).map fun line => [line]
  | rsi period => (Indicator.rsi (bars.map (·.close)) period).map fun line => [line]
  | macd => (Indicator.macd (bars.map (·.close))).map fun m => [m.macd, m.signal, m.histogram]
  | stochastic => (Indicator.stochastic bars).map fun s => [s.k, s.d]
  | bands period width => (bollingerBands (bars.map (·.close)) period width).map fun b =>
      [b.upper, b.middle, b.lower]
  | atr period => (Indicator.atr bars period).map fun line => [line]
  | adx period => (Indicator.adx bars period).map fun line => [line]
  | obv => (Indicator.obv bars).map fun line => [line]
  | vwap => (Indicator.vwap bars).map fun line => [line]

/-- Whether the label of an item can be written out. -/
def isLabelled : Item → Bool
  | sma period | ema period | wma period | rsi period | bands period _ | atr period | adx period =>
    (Datum.int period).isWritable
  | macd | stochastic | obv | vwap => true

/-- The item as a task over some bars. -/
def task (bars : List (Bar Float)) (item : Item) : Task where
  label := item.label
  outcome :=
    if item.isLabelled then (item.lines bars).map item.names.zip else .error .unwritable

/-- What a report shows of an item: all lines of its call, each under its name, or the message of
its refusal. -/
inductive Shown (bars : List (Bar Float)) (report : Report) (item : Item) : Prop
  | series (lines : List (List Float)) (hlines : item.lines bars = .ok lines)
    (hcount : lines.length = item.names.length)
    (hseries : ∀ entry ∈ item.names.zip lines, entry.2.length = bars.length ∧
      get? entry.1 report.series = some entry.2)
    (herrors : get? item.label report.errors = none)
  | refused (refusal : Refusal) (hrefused : item.lines bars = .error (.refused refusal))
    (hseries : ∀ name ∈ item.names, get? name report.series = none)
    (herrors : get? item.label report.errors = some refusal.message)

end Item

theorem map_map_zip {ρ : Type} (names : List String) (call : Except Failure ρ)
    (lines : ρ → List (List Float)) :
    (call.map lines).map names.zip = call.map fun r => names.zip (lines r) := by
  cases call <;> rfl

theorem tasks_eq (bars : List (Bar Float)) (r : Request) :
    tasks bars r = (items r).map (Item.task bars) := by
  unfold tasks items
  simp only [List.map_append, List.map_map, apply_ite (List.map (Item.task bars)), List.map_cons,
    List.map_nil, Function.comp_def, Item.task, Item.lines, map_map_zip]
  rfl

/-! Calls of items -/

namespace Item

/-- Whether an item can be told of over a number of bars: its period can be written out, and so can
the number of bars that it requires, in case there are fewer. -/
def IsTellable (count : Nat) : Item → Prop
  | sma period | ema period | wma period | bands period _ => IsNameable period
  | rsi period | atr period | adx period =>
    IsNameable period ∧ (IsNameable (period + 1) ∨ period + 1 ≤ count)
  | macd | stochastic | obv | vwap => True

/-- Whether the volumes that an item takes are numbers. -/
def HasVolumes (bars : List (Bar Float)) : Item → Prop
  | obv => HasBalance bars
  | vwap => ∀ bar ∈ bars, HasVolume bar
  | _ => True

theorem hasVolumes_of_volumes {bars : List (Bar Float)} (h : ∀ bar ∈ bars, HasVolume bar)
    (item : Item) : item.HasVolumes bars := by
  cases item with
  | obv => exact hasBalance_of_volumes h
  | vwap => exact h
  | _ => trivial

theorem onlyRefuses_lines {bars : List (Bar Float)} {item : Item}
    (htell : item.IsTellable bars.length) (hvolumes : item.HasVolumes bars) :
    OnlyRefuses (item.lines bars) := by
  cases item with
  | sma period => exact (onlyRefuses_sma _ htell).map _
  | ema period => exact (onlyRefuses_ema _ htell).map _
  | wma period => exact (onlyRefuses_wma _ htell).map _
  | rsi period =>
    refine (onlyRefuses_rsi _ htell.1 ?_).map _
    rw [List.length_map]
    exact htell.2
  | macd =>
    have hperiods : IsNameable 12 ∧ IsNameable 26 ∧ IsNameable 9 := by decide
    obtain ⟨hfast, hslow, hsignal⟩ := hperiods
    refine FailsWithin.map (onlyRefuses_macd _ hfast hslow hsignal ?_) _
    exact fun _ _ _ _ _ _ _ => .inr (by decide)
  | stochastic =>
    have hperiods : IsNameable 14 ∧ IsNameable 3 := by decide
    obtain ⟨hperiod, hsmoothing⟩ := hperiods
    exact (onlyRefuses_stochastic _ hperiod hsmoothing hsmoothing).map _
  | bands period width => exact (onlyRefuses_bollingerBands _ htell _).map _
  | atr period => exact (onlyRefuses_atr _ htell.1 htell.2).map _
  | adx period => exact (onlyRefuses_adx _ htell.1 htell.2).map _
  | obv =>
    obtain ⟨line, hline⟩ := succeeds_obv.mpr hvolumes
    have hcall : OnlyRefuses (Indicator.obv bars) := hline ▸ onlyRefuses_ok line
    exact hcall.map _
  | vwap =>
    obtain ⟨line, hline⟩ := succeeds_vwap.mpr hvolumes
    have hcall : OnlyRefuses (Indicator.vwap bars) := hline ▸ onlyRefuses_ok line
    exact hcall.map _

/-- A number of bars that is required is named if there are fewer, so it can be written out. -/
theorem isTellable_of_checked {ρ σ : Type} {kind : Kind} {count : Nat} {period : Int}
    {rest : Nat → Except Failure ρ} {lines : ρ → σ} (hperiod : IsNameable period)
    (h : OnlyRefuses ((checkPeriod kind count period (period + 1) >>= rest).map lines)) :
    IsNameable period ∧ (IsNameable (period + 1) ∨ period + 1 ≤ count) := by
  refine ⟨hperiod, or_iff_not_imp_left.mpr fun hnext => ?_⟩
  by_contra hfew
  have hpos := pos_of_not_isNameable_succ hperiod hnext
  rw [checkPeriod_of_not_isNameable hpos (not_le.mp hfew) hnext] at h
  have hcall : OnlyRefuses (.error .unwritable : Except Failure σ) := h
  exact absurd hcall (not_onlyRefuses_error nofun)

theorem isTellable_of_onlyRefuses {bars : List (Bar Float)} {item : Item}
    (hlabel : item.isLabelled = true) (h : OnlyRefuses (item.lines bars)) :
    item.IsTellable bars.length := by
  cases item with
  | sma period | ema period | wma period | bands period width => exact hlabel
  | rsi period =>
    rw [← List.length_map (f := (·.close))]
    exact isTellable_of_checked hlabel h
  | atr period => exact isTellable_of_checked hlabel h
  | adx period => exact isTellable_of_checked hlabel h
  | macd | stochastic | obv | vwap => trivial

/-- The outcome of an item is its lines or a refusal exactly if its label can be written out and its
call gives no other outcome either. -/
theorem onlyRefuses_task {bars : List (Bar Float)} {item : Item} :
    OnlyRefuses (item.task bars).outcome ↔
      item.isLabelled = true ∧ OnlyRefuses (item.lines bars) := by
  unfold task
  constructor
  · intro h
    split_ifs at h with hlabel
    · exact ⟨hlabel, fun failure hfailure => h failure (map_eq_error_iff.mpr hfailure)⟩
    · exact absurd h (not_onlyRefuses_error nofun)
  · rintro ⟨hlabel, h⟩
    rw [if_pos hlabel]
    exact h.map _

theorem isLabelled_of_isTellable {count : Nat} {item : Item} (h : item.IsTellable count) :
    item.isLabelled = true := by
  cases item with
  | sma period | ema period | wma period | bands period width => exact h
  | rsi period | atr period | adx period => exact h.1
  | macd | stochastic | obv | vwap => rfl

theorem onlyRefuses_task_iff {bars : List (Bar Float)} {item : Item}
    (hvolumes : item.HasVolumes bars) :
    OnlyRefuses (item.task bars).outcome ↔ item.IsTellable bars.length := by
  rw [onlyRefuses_task]
  constructor
  · rintro ⟨hlabel, h⟩
    exact isTellable_of_onlyRefuses hlabel h
  · intro htell
    exact ⟨isLabelled_of_isTellable htell, onlyRefuses_lines htell hvolumes⟩

end Item

/-- A call that gives a line as long as its values gives a line as long as the bars. -/
theorem length_single {bars : List (Bar Float)} {call : Except Failure (List Float)}
    {lines : List (List Float)} (hcall : ∀ line, call = .ok line → line.length = bars.length)
    (h : (call.map fun line => [line]) = .ok lines) :
    lines.length = 1 ∧ ∀ line ∈ lines, line.length = bars.length := by
  obtain ⟨line, hline, rfl⟩ := map_eq_ok_iff.mp h
  refine ⟨rfl, fun line' hmem => ?_⟩
  rw [List.mem_singleton.mp hmem]
  exact hcall line hline

theorem Item.length_lines {bars : List (Bar Float)} {item : Item} {lines : List (List Float)}
    (h : item.lines bars = .ok lines) :
    lines.length = item.names.length ∧ ∀ line ∈ lines, line.length = bars.length := by
  have hcloses : (bars.map (·.close)).length = bars.length := List.length_map _
  cases item with
  | sma period =>
    refine length_single (fun line hline => ?_) h
    exact ((steady_sma period).length_eq hline).trans hcloses
  | ema period =>
    refine length_single (fun line hline => ?_) h
    exact ((steady_ema period).length_eq hline).trans hcloses
  | wma period =>
    refine length_single (fun line hline => ?_) h
    exact ((steady_wma period).length_eq hline).trans hcloses
  | rsi period =>
    refine length_single (fun line hline => ?_) h
    exact ((steady_rsi period).length_eq hline).trans hcloses
  | macd =>
    obtain ⟨m, hm, rfl⟩ := map_eq_ok_iff.mp h
    obtain ⟨⟨hmacd, hsignal, hhistogram⟩, -⟩ := macd_grows List.prefix_rfl hm
    simp [Item.names, hmacd, hsignal, hhistogram]
  | stochastic =>
    obtain ⟨s, hs, rfl⟩ := map_eq_ok_iff.mp h
    have hk := (steady_stochastic 14 3 3).1.length_eq hs
    have hd := (steady_stochastic 14 3 3).2.length_eq hs
    simp [Item.names, hk, hd]
  | bands period width =>
    obtain ⟨b, hb, rfl⟩ := map_eq_ok_iff.mp h
    have hupper := (steady_bollingerBands period width).1.length_eq hb
    have hmiddle := (steady_bollingerBands period width).2.1.length_eq hb
    have hlower := (steady_bollingerBands period width).2.2.length_eq hb
    simp [Item.names, hupper, hmiddle, hlower]
  | atr period =>
    refine length_single (fun line hline => ?_) h
    exact (steady_atr period).length_eq hline
  | adx period =>
    refine length_single (fun line hline => ?_) h
    exact (steady_adx period).length_eq hline
  | obv =>
    refine length_single (fun line hline => ?_) h
    exact (obv_noLookAhead bars [] line hline nofun).1
  | vwap =>
    refine length_single (fun line hline => ?_) h
    exact (vwap_noLookAhead bars [] line hline nofun).1

/-! Names and labels -/

/-- The item of a request that a text speaks of, told from two of its letters and its period. -/
def itemOf? (r : Request) (letters : List Char) (period? : Option Int) : Option Item :=
  match letters with
  | ['s', 'm'] => period?.map .sma
  | ['e', 'm'] => period?.map .ema
  | ['w', 'm'] => period?.map .wma
  | ['r', 's'] => period?.map .rsi
  | ['m', 'a'] => some .macd
  | ['s', 't'] => some .stochastic
  | ['b', _] => r.bands.map fun period => .bands period r.bandWidth
  | ['a', 't'] => period?.map .atr
  | ['a', 'd'] => period?.map .adx
  | ['o', 'b'] => some .obv
  | ['v', 'w'] => some .vwap
  | _ => none

/-- The item of a request with a name. -/
def itemOfName? (r : Request) (name : String) : Option Item :=
  itemOf? r (name.toList.take 2) (String.ofList (name.toList.drop 4)).toInt?

/-- The item of a request with a label. -/
def itemOfLabel? (r : Request) (label : String) : Option Item :=
  itemOf? r ((label.toList.take 2).map Char.toLower)
    (String.ofList (label.toList.drop 4).dropLast).toInt?

theorem toInt?_digits (period : Int) :
    (String.ofList (toString period).toList).toInt? = some period := by
  rw [String.ofList_toList]
  exact Int.toInt?_repr period

theorem itemOf?_bands {r : Request} {period : Int} {width : Float}
    (h : Item.bands period width ∈ items r) (letter : Char) (period? : Option Int) :
    itemOf? r ['b', letter] period? = some (.bands period width) := by
  obtain ⟨hperiod, rfl⟩ : r.bands = some period ∧ r.bandWidth = width := by simpa [items] using h
  unfold itemOf?
  rw [hperiod]
  rfl

/-- A name of four letters and a period. -/
theorem itemOfName?_append (r : Request) {front : String} (hfront : front.toList.length = 4)
    (period : Int) :
    itemOfName? r (front ++ toString period) = itemOf? r (front.toList.take 2) (some period) := by
  rw [itemOfName?, String.toList_append, List.take_append_of_le_length (by omega),
    List.drop_append_of_le_length (by omega), List.drop_eq_nil_of_le (by omega), List.nil_append,
    toInt?_digits]

/-- A label of four letters and a period with a closing bracket. -/
theorem itemOfLabel?_append (r : Request) {front : String} (hfront : front.toList.length = 4)
    (period : Int) :
    itemOfLabel? r (front ++ toString period ++ ")") =
      itemOf? r ((front.toList.take 2).map Char.toLower) (some period) := by
  have hclosing : ")".toList = [')'] := rfl
  rw [itemOfLabel?, String.toList_append, String.toList_append, List.append_assoc,
    List.take_append_of_le_length (by omega), List.drop_append_of_le_length (by omega),
    List.drop_eq_nil_of_le (by omega), List.nil_append, hclosing, List.dropLast_concat,
    toInt?_digits]

theorem itemOfName?_of_mem {r : Request} {item : Item} (h : item ∈ items r) {name : String}
    (hname : name ∈ item.names) : itemOfName? r name = some item := by
  cases item with
  | sma period | ema period | wma period | rsi period | atr period | adx period =>
    rw [List.mem_singleton.mp hname]
    exact itemOfName?_append r rfl period
  | obv | vwap =>
    rw [List.mem_singleton.mp hname]
    rfl
  | macd =>
    simp only [Item.names, List.mem_cons, List.not_mem_nil, or_false] at hname
    rcases hname with rfl | rfl | rfl <;> rfl
  | stochastic =>
    simp only [Item.names, List.mem_cons, List.not_mem_nil, or_false] at hname
    rcases hname with rfl | rfl <;> rfl
  | bands period width =>
    -- the names say nothing of the period, but a request has one item of this kind at most
    simp only [Item.names, List.mem_cons, List.not_mem_nil, or_false] at hname
    rcases hname with rfl | rfl | rfl <;> exact itemOf?_bands h _ _

theorem itemOfLabel?_label {r : Request} {item : Item} (h : item ∈ items r) :
    itemOfLabel? r item.label = some item := by
  cases item with
  | sma period | ema period | wma period | rsi period | atr period | adx period =>
    exact itemOfLabel?_append r rfl period
  | bands period width =>
    have hletters : (s!"Bollinger Bands({period})").toList.take 2 = ['B', 'o'] := by
      rw [String.toList_append, String.toList_append]
      rfl
    unfold itemOfLabel? Item.label
    rw [hletters]
    exact itemOf?_bands h 'o' _
  | macd | stochastic | obv | vwap => rfl

/-- Two items of a request with a name in common are the same. -/
theorem eq_of_mem_names {r : Request} {item item' : Item} (h : item ∈ items r)
    (h' : item' ∈ items r) {name : String} (hname : name ∈ item.names)
    (hname' : name ∈ item'.names) : item' = item := by
  have hitem := itemOfName?_of_mem h hname
  rw [itemOfName?_of_mem h' hname'] at hitem
  exact Option.some.inj hitem

theorem eq_of_label_eq {r : Request} {item item' : Item} (h : item ∈ items r)
    (h' : item' ∈ items r) (hlabel : item'.label = item.label) : item' = item := by
  have hitem := itemOfLabel?_label h'
  rw [hlabel, itemOfLabel?_label h] at hitem
  exact (Option.some.inj hitem).symm

/-! Entries of items -/

namespace Item

/-- The entries of an item among the series of a report. -/
def series (bars : List (Bar Float)) (item : Item) : List (String × List Float) :=
  match item.lines bars with
  | .ok lines => item.names.zip lines
  | .error _ => []

/-- The entries of an item among the messages of a report. -/
def messages (bars : List (Bar Float)) (item : Item) : List (String × String) :=
  match item.lines bars with
  | .error (.refused refusal) => [(item.label, refusal.message)]
  | _ => []

/-- Whether the call of an item gives its lines. -/
def answers (bars : List (Bar Float)) (item : Item) : Bool := (item.lines bars).isOk

theorem nodup_names (item : Item) : item.names.Nodup := by
  cases item with
  | macd | stochastic | bands _ _ => simp [names]
  | _ => exact List.nodup_singleton _

theorem map_fst_series (bars : List (Bar Float)) (item : Item) :
    (item.series bars).map (·.1) = if item.answers bars then item.names else [] := by
  unfold series answers
  cases hlines : item.lines bars with
  | error failure => rfl
  | ok lines => exact List.map_fst_zip (length_lines hlines).1.ge

theorem map_fst_messages {bars : List (Bar Float)} {item : Item}
    (h : OnlyRefuses (item.lines bars)) :
    (item.messages bars).map (·.1) = if item.answers bars then [] else [item.label] := by
  unfold messages answers
  cases hlines : item.lines bars with
  | ok lines => rfl
  | error failure =>
    obtain ⟨refusal, rfl⟩ := h failure hlines
    rfl

/-- The names of an item tell its lines apart. -/
theorem eq_of_mem_series {bars : List (Bar Float)} {item : Item} {name : String}
    {line line' : List Float} (h : (name, line) ∈ item.series bars)
    (h' : (name, line') ∈ item.series bars) : line' = line := by
  have hnodup : ((item.series bars).map (·.1)).Nodup := by
    rw [map_fst_series]
    split_ifs
    · exact item.nodup_names
    · exact List.nodup_nil
  have hentry := List.inj_on_of_nodup_map hnodup h' h rfl
  exact congrArg Prod.snd hentry

theorem mem_names_of_mem_series {bars : List (Bar Float)} {item : Item} {name : String}
    {line : List Float} (h : (name, line) ∈ item.series bars) : name ∈ item.names := by
  have hname : name ∈ (item.series bars).map (·.1) := List.mem_map.mpr ⟨_, h, rfl⟩
  rw [map_fst_series] at hname
  split_ifs at hname
  · exact hname
  · contradiction

end Item

theorem enter_task {bars : List (Bar Float)} {item : Item}
    (h : OnlyRefuses (item.task bars).outcome) (report : Report) :
    enter report (item.task bars) =
      .ok { report with
        series := putAll report.series (item.series bars)
        errors := putAll report.errors (item.messages bars) } := by
  obtain ⟨hlabel, hlines⟩ := Item.onlyRefuses_task.mp h
  unfold enter Item.task Item.series Item.messages
  rw [if_pos hlabel]
  cases hcall : item.lines bars with
  | ok lines => rfl
  | error failure =>
    obtain ⟨refusal, rfl⟩ := hlines failure hcall
    rfl

/-- What can be entered into a report are lines and refusals. -/
theorem succeeds_enter {report : Report} {task : Task} :
    Succeeds (enter report task) ↔ OnlyRefuses task.outcome := by
  obtain ⟨label, outcome⟩ := task
  unfold enter
  cases outcome with
  | ok lines => exact iff_of_true (succeeds_ok _) (onlyRefuses_ok lines)
  | error failure =>
    cases failure with
    | refused refusal => exact iff_of_true (succeeds_ok _) (failsWithin_error ⟨refusal, rfl⟩)
    | unwritable | noKnownValue | volumeTooLarge =>
      exact iff_of_false (not_succeeds_error _) (not_onlyRefuses_error nofun)

/-- There is a report exactly if the outcomes of all items can be entered into it. -/
theorem succeeds_compute {bars : List (Bar Float)} {r : Request} :
    Succeeds (compute bars r) ↔ ∀ item ∈ items r, OnlyRefuses (item.task bars).outcome := by
  rw [compute, tasks_eq, List.foldlM_map]
  apply succeeds_foldlM_iff
  intro report item
  exact succeeds_enter

theorem foldlM_enter {bars : List (Bar Float)} (wanted : List Item)
    (h : ∀ item ∈ wanted, OnlyRefuses (item.task bars).outcome) (report : Report) :
    (wanted.map (Item.task bars)).foldlM enter report =
      .ok { report with
        series := putAll report.series (wanted.flatMap (Item.series bars))
        errors := putAll report.errors (wanted.flatMap (Item.messages bars)) } := by
  -- over the items, for any report that the earlier ones have left
  induction wanted generalizing report with
  | nil => rfl
  | cons item rest ih =>
    obtain ⟨hitem, hrest⟩ := List.forall_mem_cons.mp h
    rw [List.map_cons, List.foldlM_cons, enter_task hitem]
    refine (ih hrest _).trans ?_
    rw [List.flatMap_cons, List.flatMap_cons, putAll_append, putAll_append]

/-- The series of all items of a request, put one after another. -/
def allSeries (bars : List (Bar Float)) (r : Request) : List (String × List Float) :=
  putAll [] ((items r).flatMap (Item.series bars))

/-- The messages of all items of a request, put one after another. -/
def allMessages (bars : List (Bar Float)) (r : Request) : List (String × String) :=
  putAll [] ((items r).flatMap (Item.messages bars))

theorem eq_of_compute {bars : List (Bar Float)} {r : Request} {report : Report}
    (h : compute bars r = .ok report) :
    report.timestamps = bars.map (·.timestamp) ∧ report.series = allSeries bars r ∧
      report.errors = allMessages bars r := by
  have hentered := foldlM_enter (items r) (succeeds_compute.mp ⟨report, h⟩)
    { timestamps := bars.map (·.timestamp) }
  rw [compute, tasks_eq, hentered] at h
  cases h
  exact ⟨rfl, rfl, rfl⟩

/-! What a report shows -/

theorem flatMap_ite_nil {α β : Type} (p : α → Bool) (f : α → List β) (xs : List α) :
    (xs.flatMap fun x => if p x then f x else []) = (xs.filter p).flatMap f := by
  induction xs with
  | nil => rfl
  | cons x rest ih =>
    rw [List.flatMap_cons, ih]
    cases hx : p x <;> simp [hx]

theorem map_fst_allSeries (bars : List (Bar Float)) (r : Request) :
    (allSeries bars r).map (·.1) =
      (((items r).filter (Item.answers bars)).flatMap Item.names).eraseDups := by
  have hnames : ((items r).flatMap (Item.series bars)).map (·.1) =
      ((items r).filter (Item.answers bars)).flatMap Item.names := by
    rw [List.map_flatMap, ← flatMap_ite_nil]
    exact List.flatMap_congr fun item _ => item.map_fst_series bars
  rw [allSeries, map_fst_putAll, hnames]

theorem map_fst_allMessages {bars : List (Bar Float)} {r : Request}
    (h : ∀ item ∈ items r, OnlyRefuses (item.lines bars)) :
    (allMessages bars r).map (·.1) =
      (((items r).filter fun item => !item.answers bars).map Item.label).eraseDups := by
  have hlabels : ((items r).flatMap (Item.messages bars)).map (·.1) =
      ((items r).filter fun item => !item.answers bars).map Item.label := by
    rw [List.map_flatMap, List.map_eq_flatMap, ← flatMap_ite_nil]
    refine List.flatMap_congr fun item hitem => ?_
    rw [Item.map_fst_messages (h item hitem)]
    cases item.answers bars <;> rfl
  rw [allMessages, map_fst_putAll, hlabels]

section Shown

variable {bars : List (Bar Float)} {r : Request} {item : Item}

/-- A line of an item is found under its name, since no other item of the request has that name. -/
theorem get?_series (h : item ∈ items r) {entry : String × List Float}
    (hentry : entry ∈ item.series bars) :
    get? entry.1 (allSeries bars r) = some entry.2 := by
  apply get?_putAll_of_mem (List.mem_flatMap.mpr ⟨item, h, hentry⟩)
  -- an equal item that is wanted twice puts the same line once more
  intro other hother
  obtain ⟨item', h', hother⟩ := List.mem_flatMap.mp hother
  have hsame : item' = item := eq_of_mem_names h h' (Item.mem_names_of_mem_series hentry)
    (Item.mem_names_of_mem_series hother)
  rw [hsame] at hother
  exact Item.eq_of_mem_series hentry hother

theorem get?_series_eq_none (h : item ∈ items r) (hnone : item.series bars = []) {name : String}
    (hname : name ∈ item.names) :
    get? name (allSeries bars r) = none := by
  apply get?_putAll_of_not_mem
  intro hmem
  obtain ⟨entry, hentry, rfl⟩ := List.mem_map.mp hmem
  obtain ⟨item', h', hentry⟩ := List.mem_flatMap.mp hentry
  have hsame : item' = item := eq_of_mem_names h h' hname (Item.mem_names_of_mem_series hentry)
  rw [hsame, hnone] at hentry
  exact List.not_mem_nil hentry

theorem eq_label_of_mem_messages {entry : String × String} (h : entry ∈ item.messages bars) :
    entry.1 = item.label := by
  unfold Item.messages at h
  split at h
  · rw [List.mem_singleton.mp h]
  · contradiction

theorem get?_messages (h : item ∈ items r) {message : String}
    (hmessages : item.messages bars = [(item.label, message)]) :
    get? item.label (allMessages bars r) = some message := by
  have hmem : (item.label, message) ∈ item.messages bars := by
    rw [hmessages]
    exact List.mem_singleton_self _
  apply get?_putAll_of_mem (List.mem_flatMap.mpr ⟨item, h, hmem⟩)
  intro other hother
  obtain ⟨item', h', hother⟩ := List.mem_flatMap.mp hother
  have hsame : item' = item := eq_of_label_eq h h' (eq_label_of_mem_messages hother).symm
  rw [hsame, hmessages] at hother
  exact congrArg Prod.snd (List.mem_singleton.mp hother)

theorem get?_messages_eq_none (h : item ∈ items r) (hnone : item.messages bars = []) :
    get? item.label (allMessages bars r) = none := by
  apply get?_putAll_of_not_mem
  intro hmem
  obtain ⟨entry, hentry, hlabel⟩ := List.mem_map.mp hmem
  obtain ⟨item', h', hentry⟩ := List.mem_flatMap.mp hentry
  have hsame : item' = item :=
    eq_of_label_eq h h' ((eq_label_of_mem_messages hentry).symm.trans hlabel)
  rw [hsame, hnone] at hentry
  exact List.not_mem_nil hentry

theorem onlyRefuses_of_mem_items (h : item ∈ items r) (hreport : Succeeds (compute bars r)) :
    OnlyRefuses (item.lines bars) :=
  (Item.onlyRefuses_task.mp (succeeds_compute.mp hreport item h)).2

theorem shown_of_mem_items (h : item ∈ items r) {report : Report}
    (hreport : compute bars r = .ok report) : item.Shown bars report := by
  obtain ⟨-, hall, hallMessages⟩ := eq_of_compute hreport
  cases hlines : item.lines bars with
  | ok lines =>
    have hseries : item.series bars = item.names.zip lines := by rw [Item.series, hlines]
    have hmessages : item.messages bars = [] := by rw [Item.messages, hlines]
    obtain ⟨hcount, hlengths⟩ := Item.length_lines hlines
    refine .series lines hlines hcount (fun entry hentry => ⟨?_, ?_⟩) ?_
    · exact hlengths _ (List.of_mem_zip hentry).2
    · rw [← hseries] at hentry
      rw [hall]
      exact get?_series h hentry
    · rw [hallMessages]
      exact get?_messages_eq_none h hmessages
  | error failure =>
    obtain ⟨refusal, rfl⟩ := onlyRefuses_of_mem_items h ⟨report, hreport⟩ failure hlines
    have hseries : item.series bars = [] := by rw [Item.series, hlines]
    have hmessages : item.messages bars = [(item.label, refusal.message)] := by
      rw [Item.messages, hlines]
    refine .refused refusal hlines (fun name hname => ?_) ?_
    · rw [hall]
      exact get?_series_eq_none h hseries hname
    · rw [hallMessages]
      exact get?_messages h hmessages

/-- What is shown of an item depends on nothing but its call. -/
theorem Item.Shown.agree {report report' : Report} (h : item.Shown bars report)
    (h' : item.Shown bars report') :
    (∀ name ∈ item.names, get? name report.series = get? name report'.series) ∧
      get? item.label report.errors = get? item.label report'.errors := by
  cases h with
  | series lines hlines hcount hseries herrors =>
    cases h' with
    | series lines' hlines' _ hseries' herrors' =>
      cases hlines.symm.trans hlines'
      refine ⟨fun name hname => ?_, herrors.trans herrors'.symm⟩
      have hnames : (item.names.zip lines).map (·.1) = item.names := List.map_fst_zip hcount.ge
      rw [← hnames] at hname
      obtain ⟨entry, hentry, rfl⟩ := List.mem_map.mp hname
      rw [(hseries entry hentry).2, (hseries' entry hentry).2]
    | refused refusal' hrefused' _ _ => cases hlines.symm.trans hrefused'
  | refused refusal hrefused hseries herrors =>
    cases h' with
    | series lines' hlines' _ _ _ => cases hrefused.symm.trans hlines'
    | refused refusal' hrefused' hseries' herrors' =>
      cases hrefused.symm.trans hrefused'
      refine ⟨fun name hname => ?_, herrors.trans herrors'.symm⟩
      rw [hseries name hname, hseries' name hname]

end Shown

/-- Indicators that are computed together are those that are computed alone. If all volumes are
numbers, there is a report exactly if all items can be told of. It is over all bars and shows, of
each item, either all lines of its own call or the message of its own refusal. There is nothing else
in it, and both series and messages stand in the order of the items, a repeated name at its first
place. Hence two requests show the same of each item that is in both. -/
theorem compute_compositional (bars : List (Bar Float)) (r : Request)
    (hvolumes : ∀ bar ∈ bars, HasVolume bar) :
    ((∃ report, compute bars r = .ok report) ↔ ∀ item ∈ items r, item.IsTellable bars.length) ∧
    ∀ report, compute bars r = .ok report →
      report.timestamps = bars.map (·.timestamp) ∧
      (∀ item ∈ items r, item.Shown bars report) ∧
      report.series.map (·.1) =
        (((items r).filter (Item.answers bars)).flatMap Item.names).eraseDups ∧
      report.errors.map (·.1) =
        (((items r).filter fun item => !item.answers bars).map Item.label).eraseDups ∧
      (report.series.map (·.1)).Nodup ∧ (report.errors.map (·.1)).Nodup ∧
      ∀ r' report', compute bars r' = .ok report' → ∀ item ∈ items r, item ∈ items r' →
        (∀ name ∈ item.names, get? name report.series = get? name report'.series) ∧
        get? item.label report.errors = get? item.label report'.errors := by
  constructor
  · refine succeeds_compute.trans (forall₂_congr fun item _ => ?_)
    exact Item.onlyRefuses_task_iff (Item.hasVolumes_of_volumes hvolumes item)
  intro report hreport
  obtain ⟨htimes, hseries, herrors⟩ := eq_of_compute hreport
  have hnames := map_fst_allSeries bars r
  have hlabels := map_fst_allMessages fun item h => onlyRefuses_of_mem_items h ⟨report, hreport⟩
  rw [← hseries] at hnames
  rw [← herrors] at hlabels
  refine ⟨htimes, fun item h => shown_of_mem_items h hreport, hnames, hlabels, ?_, ?_, ?_⟩
  · rw [hnames]
    exact nodup_eraseDups _
  · rw [hlabels]
    exact nodup_eraseDups _
  · intro r' report' hreport' item h h'
    exact (shown_of_mem_items h hreport).agree (shown_of_mem_items h' hreport')

/-- Three bars whose closes double. -/
def doublingBars : List (Bar Float) :=
  [⟨0, 1, 1, 1, 1, 5⟩, ⟨60, 1, 2, 1, 2, 6⟩, ⟨120, 2, 4, 2, 4, 7⟩]

/-- A period that occurs twice has one line, the refused period and the refused lines leave their
messages, and the balance of volume is what it is when nothing else is wanted. -/
theorem compute_doublingBars :
    (∀ bar ∈ doublingBars, HasVolume bar) ∧
    ∃ report alone, compute doublingBars { sma := [2, 9, 2], macd := true, obv := true } =
        .ok report ∧ compute doublingBars { obv := true } = .ok alone ∧
      report.series.map (·.1) = ["sma_2", "obv"] ∧
      report.errors.map (·.1) = ["SMA(9)", "MACD"] ∧
      get? "obv" report.series = get? "obv" alone.series := by
  have hvolumes : ∀ bar ∈ doublingBars, HasVolume bar := by
    unfold HasVolume
    decide +kernel
  have hperiods : IsNameable 2 ∧ IsNameable 9 := by decide
  obtain ⟨htold, hshows⟩ :=
    compute_compositional doublingBars { sma := [2, 9, 2], macd := true, obv := true } hvolumes
  obtain ⟨report, hreport⟩ := htold.mpr (by simp [items, Item.IsTellable, hperiods])
  obtain ⟨-, -, hseries, herrors, -, -, hagree⟩ := hshows report hreport
  have htoldAlone := (compute_compositional doublingBars { obv := true } hvolumes).1
  obtain ⟨alone, halone⟩ := htoldAlone.mpr (by simp [items, Item.IsTellable])
  refine ⟨hvolumes, report, alone, hreport, halone, ?_, ?_, ?_⟩
  · rw [hseries]
    decide +kernel
  · rw [herrors]
    decide +kernel
  · have hobv := hagree _ alone halone .obv (by simp [items]) (by simp [items])
    exact hobv.1 "obv" (List.mem_singleton_self _)

/-- A period of 4817 digits. -/
def longPeriod : Int := 16 ^ 4000 - 1

theorem not_isNameable_longPeriod : ¬IsNameable longPeriod := by
  rw [IsNameable, Datum.isWritable_int, longPeriod]
  decide +kernel

/-- An average over a period that cannot be written out breaks off the request, so that the balance
of volume, which has a report when it is alone, has none together with it. -/
theorem long_period_breaks_off :
    let bars : List (Bar Float) := [⟨1, 1, 2, 0.5, 1.5, 10⟩]
    (∀ bar ∈ bars, HasVolume bar) ∧
      (∃ report, compute bars { obv := true } = .ok report ∧ (get? "obv" report.series).isSome) ∧
      compute bars { sma := [longPeriod], obv := true } = .error .unwritable := by
  intro bars
  have hvolumes : ∀ bar ∈ bars, HasVolume bar := by
    unfold HasVolume
    decide +kernel
  refine ⟨hvolumes, ?_, ?_⟩
  · exact ⟨_, rfl, rfl⟩
  · have hlabel : (Item.sma longPeriod).isLabelled = false :=
      Bool.eq_false_iff.mpr not_isNameable_longPeriod
    have hitems : items { sma := [longPeriod], obv := true } = [.sma longPeriod, .obv] := rfl
    rw [compute, tasks_eq, hitems, List.foldlM_map, List.foldlM_cons, enter, Item.task, hlabel]
    rfl

end Bourse.Indicator
