import HypervisorTrace.Command
import Mathlib.Tactic

/-!
When a command gets its session. The settings of its source must be there and
stand for options, the source overrides these, and the bytes of its input must
be a trace under the options that come out. Nothing else is asked for.
-/

namespace HypervisorTrace

section Results

variable {α β Error Other : Type} {result : Except Error α}

theorem bind_eq_ok_iff {next : α → Except Error β} {value : β} :
    (result >>= next) = .ok value ↔ ∃ first, result = .ok first ∧ next first = .ok value := by
  cases result with
  | error error => exact ⟨nofun, nofun⟩
  | ok first =>
      constructor
      · intro hnext
        exact ⟨first, rfl, hnext⟩
      · rintro ⟨_, hfirst, hnext⟩
        cases hfirst
        exact hnext

theorem bind_eq_error_iff {next : α → Except Error β} {error : Error} :
    (result >>= next) = .error error ↔
      result = .error error ∨ ∃ first, result = .ok first ∧ next first = .error error := by
  cases result with
  | error other =>
      constructor
      · intro hresult
        cases hresult
        exact Or.inl rfl
      · rintro (hresult | ⟨_, hfirst, -⟩)
        · cases hresult
          rfl
        · cases hfirst
  | ok first =>
      constructor
      · exact fun hnext => Or.inr ⟨first, rfl, hnext⟩
      · rintro (hresult | ⟨_, hfirst, hnext⟩)
        · cases hresult
        · cases hfirst
          exact hnext

theorem mapError_eq_error_iff {wrap : Error → Other} {other : Other} :
    result.mapError wrap = .error other ↔ ∃ error, result = .error error ∧ wrap error = other := by
  cases result <;> simp [Except.mapError]

theorem mapError_eq_ok_iff {wrap : Error → Other} {value : α} :
    result.mapError wrap = .ok value ↔ result = .ok value := by
  cases result <;> simp [Except.mapError]

theorem pure_eq_ok_iff {first value : α} :
    (pure first : Except Error α) = .ok value ↔ first = value := by
  simp [pure, Except.pure]

end Results

/-- A session is loaded if the bytes at its path are there and are a trace. -/
theorem Session.load_eq_ok_iff {store : Store} {path : String} {options : Options}
    {session : Session} :
    load store path options = .ok session ↔ ∃ bytes,
      store.read path = .ok bytes ∧ ofBytes bytes options = .ok session := by
  unfold load
  cases store.read path with
  | error fault => exact ⟨nofun, nofun⟩
  | ok bytes => cases hopen : ofBytes bytes options <;> simp [hopen]

theorem Session.load_eq_error_iff {store : Store} {path : String} {options : Options}
    {error : TraceError} :
    load store path options = .error error ↔
      (∃ fault, store.read path = .error fault ∧ .unreadable fault = error) ∨
      ∃ bytes fault, store.read path = .ok bytes ∧
        ofBytes bytes options = .error fault ∧ .stream fault = error := by
  unfold load
  cases store.read path with
  | error fault => simp
  | ok bytes => cases hopen : ofBytes bytes options <;> simp [hopen]

/-- The frequency that some settings give, if they give one. -/
def Settings.hertz? (settings : Settings) : Option UInt64 :=
  settings.cpuHz.bind fun given => given.resolve.toOption

theorem Settings.cpuHz_of_toOptions {settings : Settings} {base : Options}
    (hbase : settings.toOptions = .ok base) :
    base.clock.cpuHz = settings.hertz?.getD Clock.defaultHz := by
  obtain ⟨cpuHz, absolute, format, streamId⟩ := settings
  cases cpuHz with
  | none =>
      cases hbase
      rfl
  | some given =>
      cases hgiven : given.resolve with
      | error error =>
          simp only [toOptions, hgiven] at hbase
          cases hbase
      | ok hertz =>
          simp only [toOptions, hgiven] at hbase
          cases hbase
          simp only [hertz?, Option.bind_some, hgiven]
          rfl

/-- The options that a source makes of others. -/
def Source.override (source : Source) (base : Options) : Options where
  clock :=
    { cpuHz := (source.cpuHz.bind Clock.Frequency.parse?).getD base.clock.cpuHz
      absolute := source.absolute.getD base.clock.absolute }
  format := source.format.getD base.format
  streamId := base.streamId

namespace Command

variable {store : Store} {source : Source} {options : Options} {session : Session}

/-- The settings of a source: those in its file, and without a file those that
say nothing. -/
def loadSettings (store : Store) (source : Source) : Except SettingsError Settings :=
  match source.config with
  | some path => Settings.load store path
  | none => .ok Settings.unset

theorem resolve_eq_ok_iff :
    resolve store source = .ok options ↔ ∃ settings base,
      loadSettings store source = .ok settings ∧ settings.toOptions = .ok base ∧
        source.override base = options := by
  unfold resolve loadSettings
  cases source.config with
  | none =>
      simp only [bind_eq_ok_iff, mapError_eq_ok_iff, pure_eq_ok_iff, Source.override,
        Except.ok.injEq, exists_and_left]
  | some path =>
      simp only [bind_eq_ok_iff, mapError_eq_ok_iff, pure_eq_ok_iff, Source.override,
        exists_and_left]

theorem resolve_eq_error_iff {failure : Failure} :
    resolve store source = .error failure ↔
      (∃ path error, source.config = some path ∧ Settings.load store path = .error error ∧
        .loadSettings path error = failure) ∨
      ∃ settings error, loadSettings store source = .ok settings ∧
        settings.toOptions = .error error ∧ .resolveOptions error = failure := by
  unfold resolve loadSettings
  cases source.config with
  | none => simp [bind_eq_error_iff, mapError_eq_error_iff, pure, Except.pure]
  | some path =>
      simp [bind_eq_error_iff, mapError_eq_error_iff, mapError_eq_ok_iff, pure, Except.pure]

theorem openSession_eq_ok_iff :
    openSession store source = .ok session ↔ ∃ options bytes,
      resolve store source = .ok options ∧ store.read source.input = .ok bytes ∧
        Session.ofBytes bytes options = .ok session := by
  simp only [openSession, bind_eq_ok_iff, mapError_eq_ok_iff, Session.load_eq_ok_iff,
    exists_and_left]

end Command

end HypervisorTrace
