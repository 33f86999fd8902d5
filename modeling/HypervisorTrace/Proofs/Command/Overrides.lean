import HypervisorTrace.Proofs.Clock.Decisions
import HypervisorTrace.Proofs.Command.Resolution
import Mathlib

/-!
The two ways to override what settings say of the clock. A source has a text for
the frequency and a choice of the epoch that has been read already; a clock is
overridden with the texts under two keys. Where the choice has been read from
the text under its key, both come to the same clock. Settings that stand for no
options are mended by neither.

Settings, texts and the standard clock agree in refusing the frequency zero, so
no source is resolved to it.
-/

namespace HypervisorTrace

theorem GivenFrequency.resolve_ne_ok_zero (given : GivenFrequency) : given.resolve ≠ .ok 0 := by
  cases given with
  | hertz value =>
      rw [resolve]
      split
      · exact nofun
      · rename_i hnonzero
        exact fun hzero => hnonzero (Except.ok.inj hzero)
  | text content =>
      rw [resolve]
      cases hparse : Clock.Frequency.parse? content with
      | none => exact nofun
      | some value =>
          intro hzero
          obtain rfl := Except.ok.inj hzero
          exact Clock.Frequency.parse?_ne_some_zero content hparse

namespace Settings

theorem hertz?_ne_some_zero (settings : Settings) : settings.hertz? ≠ some 0 := by
  unfold hertz?
  cases settings.cpuHz with
  | none => exact nofun
  | some given =>
      rw [Option.bind_some]
      cases hgiven : given.resolve with
      | error error => exact nofun
      | ok hertz =>
          intro hzero
          obtain rfl := Option.some.inj hzero
          exact given.resolve_ne_ok_zero hgiven

theorem cpuHz_ne_zero_of_toOptions {settings : Settings} {base : Options}
    (hbase : settings.toOptions = .ok base) : base.clock.cpuHz ≠ 0 := by
  rw [cpuHz_of_toOptions hbase]
  exact Clock.getD_ne_zero settings.hertz?_ne_some_zero Clock.defaultHz_ne_zero

end Settings

theorem Source.cpuHz_override_ne_zero (source : Source) {base : Options}
    (hbase : base.clock.cpuHz ≠ 0) : (source.override base).clock.cpuHz ≠ 0 :=
  Clock.getD_ne_zero (Clock.Frequency.bind_parse?_ne_some_zero source.cpuHz) hbase

/-- A source whose options for the clock come from the texts under the two keys
overrides a clock as the texts do. -/
theorem Source.clock_override {source : Source} {texts : String → Option String}
    (hcpuHz : source.cpuHz = texts Clock.frequencyKey)
    (habsolute : source.absolute = (texts Clock.absoluteKey).map Clock.parseFlag)
    (base : Options) : (source.override base).clock = base.clock.withOverrides texts :=
  calc
    (source.override base).clock =
        ⟨(source.cpuHz.bind Clock.Frequency.parse?).getD base.clock.cpuHz,
          source.absolute.getD base.clock.absolute⟩ := rfl
    _ = ⟨(base.clock.withOverrides texts).cpuHz, (base.clock.withOverrides texts).absolute⟩ := by
      rw [Clock.cpuHz_withOverrides, Clock.absolute_withOverrides, hcpuHz, habsolute]
    _ = base.clock.withOverrides texts := rfl

namespace Command

variable {store : Store} {source : Source} {settings : Settings}

/-- Once the settings have been loaded, they decide whether there are options,
and the source overrides these. -/
theorem resolve_of_loadSettings (hload : loadSettings store source = .ok settings) :
    resolve store source = (settings.toOptions.mapError .resolveOptions).map source.override := by
  unfold loadSettings at hload
  unfold resolve
  cases hconfig : source.config with
  | none =>
      rw [hconfig] at hload
      cases hload
      rfl
  | some path =>
      rw [hconfig] at hload
      dsimp only at hload ⊢
      rw [hload]
      rfl

theorem cpuHz_ne_zero_of_resolve {options : Options}
    (hresolve : resolve store source = .ok options) : options.clock.cpuHz ≠ 0 := by
  obtain ⟨settings, base, -, hbase, rfl⟩ := resolve_eq_ok_iff.mp hresolve
  exact source.cpuHz_override_ne_zero (Settings.cpuHz_ne_zero_of_toOptions hbase)

/-- With two texts as its options for the clock a source is resolved to the clock
of its settings, overridden by the same texts under their keys; a framing of its
own comes before that of the settings, and the stream number is that of the
settings. Settings that stand for no options fail under any options. No source
is resolved to the frequency zero. -/
theorem resolve_eq_withOverrides (store : Store) (input : String) (config : Option String)
    (texts : String → Option String) (format : Option Wire.Format) :
    let source : Source := ⟨input, config, texts Clock.frequencyKey,
      (texts Clock.absoluteKey).map Clock.parseFlag, format⟩
    (∀ settings base, loadSettings store source = .ok settings → settings.toOptions = .ok base →
      resolve store source =
        .ok ⟨base.clock.withOverrides texts, format.getD base.format, base.streamId⟩) ∧
    (∀ settings error, loadSettings store source = .ok settings →
      settings.toOptions = .error error → resolve store source = .error (.resolveOptions error)) ∧
    ∀ options, resolve store source = .ok options → 1 ≤ options.clock.cpuHz := by
  intro source
  refine ⟨?_, ?_, ?_⟩
  · intro settings base hload hbase
    have hclock : (source.override base).clock = base.clock.withOverrides texts :=
      Source.clock_override rfl rfl base
    rw [resolve_of_loadSettings hload, hbase, ← hclock]
    rfl
  · intro settings error hload herror
    rw [resolve_of_loadSettings hload, herror]
    rfl
  · intro options hresolve
    have hnonzero := cpuHz_ne_zero_of_resolve hresolve
    rw [Ne, ← UInt64.toNat_inj] at hnonzero
    rw [UInt64.le_iff_toNat_le]
    exact Nat.one_le_iff_ne_zero.mpr hnonzero

/-- A text that gives no frequency leaves that of the settings, and a text that
does not mean yes turns off what the settings turn on. A text that means yes
turns on what the standard settings turn off. Other settings, with a frequency
that is none, are not mended by a text. -/
theorem resolve_eq_withOverrides_wrong_texts :
    let texts := fun key => if key = Clock.frequencyKey then some "fast" else some "no"
    let store : Store :=
      ⟨[(["c"], .file (Text.utf8 "[clock]\ncpu_hz=\"2G\"\nabsolute=true")),
        (["w"], .file (Text.utf8 "clock.cpu_hz=\"warp\""))]⟩
    resolve store ⟨"t", some "c", some "fast", some false, some .fixedHeader⟩ =
        .ok ⟨(⟨2000000000, true⟩ : Clock).withOverrides texts, .fixedHeader, 0⟩ ∧
      (⟨2000000000, true⟩ : Clock).withOverrides texts = ⟨2000000000, false⟩ ∧
      (1 : UInt64) ≤ 2000000000 ∧
      resolve store ⟨"t", none, none, some (Clock.parseFlag " True"), none⟩ =
        .ok ⟨⟨2400000000, true⟩, .trec, 0⟩ ∧
      resolve store ⟨"t", some "w", some "fast", some false, none⟩ =
        .error (.resolveOptions (.invalidFrequency "warp")) := by
  intro texts store
  let given : Settings := ⟨some (.text "2G"), some true, none, none⟩
  let wrong : Settings := ⟨some (.text "warp"), none, none, none⟩
  have hgiven : loadSettings store ⟨"t", some "c", some "fast", some false, some .fixedHeader⟩ =
      .ok given := by cbv
  have hwrong : loadSettings store ⟨"t", some "w", some "fast", some false, none⟩ =
      .ok wrong := by cbv
  have hbase : given.toOptions = .ok ⟨⟨2000000000, true⟩, .trec, 0⟩ := by decide
  have herror : wrong.toOptions = .error (.invalidFrequency "warp") := by decide
  have hclock : (⟨2000000000, true⟩ : Clock).withOverrides texts = ⟨2000000000, false⟩ := by
    decide
  obtain ⟨hresolved, -, hpositive⟩ :=
    resolve_eq_withOverrides store "t" (some "c") texts (some .fixedHeader)
  obtain ⟨-, hfails, -⟩ := resolve_eq_withOverrides store "t" (some "w") texts none
  -- There is no settings file, and the only text means yes.
  let yes := fun key => if key = Clock.absoluteKey then some " True" else none
  have hflag : Clock.parseFlag " True" = true :=
    (Clock.parseFlag_iff " True").mpr ⟨'T', by decide, rfl⟩
  have habsolute : Options.standard.clock.withOverrides yes = ⟨2400000000, true⟩ := by
    change (⟨2400000000, Clock.parseFlag " True"⟩ : Clock) = ⟨2400000000, true⟩
    rw [hflag]
  obtain ⟨hturned, -, -⟩ := resolve_eq_withOverrides store "t" none yes none
  have hyes := hturned Settings.unset Options.standard rfl rfl
  rw [habsolute] at hyes
  have hoptions := hresolved given _ hgiven hbase
  have hleast := hpositive _ hoptions
  rw [hclock] at hleast
  exact ⟨hoptions, hclock, hleast, hyes, hfails wrong _ hwrong herror⟩

end Command

end HypervisorTrace
