import Telemetry.Proofs.Scrape.Isolation
import Telemetry.Proofs.Settings

/-!
# Which settings are accepted

A text that has the right shape writes settings, and these are accepted just in case they are
sound (`Settings.read_judged`).

Addresses and durations may be read again when they are needed.  Then a fallback stands for
what cannot be read.  Of settings that are accepted everything can be read that is needed, and
it makes no difference what the fallbacks are.
-/

namespace Telemetry

/-! ## All settings -/

/-- Whether settings are what is written. -/
structure Settings.Follow (settings : Settings) (c : Written.Config) : Prop where
  /-- The addresses and durations that are needed are those that are read. -/
  read : SocketAddress.read c.general.listen.toList = .ok settings.general.listen ∧
    readDuration c.exporter.ttl.toList = .ok settings.exporter.ttl ∧
    readDuration c.exporter.expirationInterval.toList = .ok settings.exporter.expirationInterval ∧
    (c.debug.enabled = true →
      SocketAddress.read c.debug.listen.toList = .ok settings.debug.listen)
  /-- If they are read again, they are the same, whatever the fallbacks are. -/
  again : ∀ (address : SocketAddress) (nanoseconds : Nat),
    c.general.addressOr address = settings.general.listen ∧
    c.exporter.ttlOr nanoseconds = settings.exporter.ttl ∧
    c.exporter.intervalOr nanoseconds = settings.exporter.expirationInterval ∧
    (c.debug.enabled = true → c.debug.addressOr address = settings.debug.listen)
  /-- Everything else is as it is written. -/
  rest : settings = c.settings
  /-- When scraping is set up, each target has one scraper, under its source, and there are no
  others. -/
  perTarget : ∀ {files : FileTree} {defaults : Dict String} {r r' : Registry} {s : Scraper},
    Scraper.setUp files settings.scrape defaults r = .ok (s, r') →
      s.perTarget.toList.Perm (c.scrape.targets.map fun t => (t.sourceId, s.only t))

/-- What comes of settings that are written. -/
structure Written.Config.Judged (c : Written.Config) (result : Except SettingsError Settings) :
    Prop where
  /-- They are accepted just in case they are sound. -/
  accepted : (∃ settings, result = .ok settings) ↔ c.IsSound
  /-- Otherwise the error is the first of all that is wrong. -/
  refused : ∀ e, result = .error e ↔ c.violations.head? = some e
  /-- If they are accepted, nothing is taken for something else than is written. -/
  followed : ∀ settings, result = .ok settings → settings.Follow c

theorem Written.Config.IsSound.follow {c : Written.Config} (sound : c.IsSound) :
    c.settings.Follow c := by
  have ttl := (Written.exists_pos_iff.mp sound.ttl).1
  have interval := (Written.exists_pos_iff.mp sound.interval).1
  constructor
  case read =>
    exact ⟨Written.eq_ok_readOr sound.listen _, Written.eq_ok_readOr ttl _,
      Written.eq_ok_readOr interval _, fun enabled => Written.eq_ok_readOr (sound.debug enabled) _⟩
  case again =>
    intro address nanoseconds
    exact ⟨Written.readOr_congr sound.listen _ _, Written.readOr_congr ttl _ _,
      Written.readOr_congr interval _ _,
      fun enabled => Written.readOr_congr (sound.debug enabled) _ _⟩
  case rest => rfl
  case perTarget =>
    intro files defaults r r' s ready
    obtain ⟨targets, -⟩ := Scrape.of_setUp ready
    have distinct : (s.targets.map (·.sourceId)).Nodup := targets.symm ▸ sound.distinct
    have perm := Scraper.toList_perTarget_perm distinct
    rwa [targets] at perm

/-- Settings of the right shape are accepted just in case they are sound, and then they are what
is written. -/
theorem Settings.read_judged {text : List Char} {c : Written.Config}
    (shaped : Written.Config.read? text = some c) : c.Judged (Settings.read text) := by
  have read : Settings.read text = c.check := by rw [Settings.read, shaped]
  rw [read]
  constructor
  case accepted =>
    simp only [Written.Config.check_eq_ok_iff, exists_and_left, exists_eq', and_true]
  case refused =>
    intro e
    rw [Written.Config.check_eq, Written.judged_eq_error_iff]
  case followed =>
    intro settings accepted
    obtain ⟨sound, rfl⟩ := Written.Config.check_eq_ok_iff.mp accepted
    exact sound.follow

/-- A target and a diagnostic server. -/
def oneSite : String :=
  "[exporter]\nttl = \"1m 30s\"\n[[scrape.targets]]\nsource_id = \"api\"\nport = 8080\n" ++
    "[debug]\nenabled = true\n"

/-- They are accepted, with a minute and a half for metrics to live. -/
theorem Settings.read_judged_oneSite :
    ∃ c, Written.Config.read? oneSite.toList = some c ∧
      c.Judged (Settings.read oneSite.toList) ∧
      (Settings.read oneSite.toList).toOption.map
          (fun s => (s.exporter.ttl, s.scrape.targets.map (·.sourceId), s.debug.listen)) =
        some (90 * TimeUnit.perSecond, ["api"], ⟨.v4 [127, 0, 0, 1], 14727⟩) := by
  have computed : (Written.Config.read? oneSite.toList).map (fun c => c.check.toOption.map fun s =>
        (s.exporter.ttl, s.scrape.targets.map (·.sourceId), s.debug.listen)) =
      some (some (90 * TimeUnit.perSecond, ["api"], ⟨.v4 [127, 0, 0, 1], 14727⟩)) := by
    decide +kernel
  obtain ⟨c, shaped, values⟩ := Option.map_eq_some_iff.mp computed
  have read : Settings.read oneSite.toList = c.check := by rw [Settings.read, shaped]
  exact ⟨c, shaped, Settings.read_judged shaped, by rw [read, values]⟩

/-- Nothing can be read of the first duration, and the second is zero. -/
example : (Written.Config.read?
      "[exporter]\nttl = \"forever\"\nexpiration_interval = \"0s\"\n".toList).map
        Written.Config.violations =
    some [.badDuration "exporter.ttl" (.expectedNumber 0),
      .zero "exporter.expiration_interval"] := by
  decide +kernel

end Telemetry
