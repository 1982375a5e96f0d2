import Mathlib.Data.List.Nodup
import Telemetry.Settings.Checking

/-!
# What is wrong with settings

All that may be wrong with written settings is put in a list, check by check, each taken by
itself (`Config.violations`).  The checks are made one after the other, and what comes
of them is decided by the first entry of the list (`Config.check_eq`), since checks
that are made in order are listed in order (`judged_bind`).  So settings are accepted just in
case nothing is wrong with them, which is to say that they are sound (`Config.IsSound`).

What is accepted is given here as it would be read when it is needed, with a fallback for what
cannot be read (`Config.settings`).
-/

namespace Telemetry

/-- A result comes of two steps if each of them has one. -/
theorem bind_eq_ok_iff {ε α β : Type} {x : Except ε α} {f : α → Except ε β} {b : β} :
    x >>= f = .ok b ↔ ∃ a, x = .ok a ∧ f a = .ok b := by
  cases x with
  | error e => exact ⟨nofun, nofun⟩
  | ok a => exact ⟨fun h => ⟨a, rfl, h⟩, fun ⟨_, rfl, h⟩ => h⟩

/-- Whether a target may be scraped. -/
structure Target.IsSound (t : Target) : Prop where
  /-- It has a source. -/
  sourceId : t.sourceId ≠ ""
  /-- It has a port. -/
  port : t.port ≠ 0
  /-- It is reached by a scheme that is known. -/
  scheme : t.scheme = "http" ∨ t.scheme = "https"

namespace Written

/-! ## Checks in order -/

/-- What comes of checks, by all that is wrong, in order. -/
def judged {α : Type} (violations : List SettingsError) (value : α) : Except SettingsError α :=
  match violations with
  | [] => .ok value
  | e :: _ => .error e

/-- An error, where something is wrong. -/
def errorIf (wrong : Prop) [Decidable wrong] (e : SettingsError) : List SettingsError :=
  if wrong then [e] else []

/-- The error of a reading. -/
def readingErrors {ε α : Type} (tell : ε → SettingsError) : Except ε α → List SettingsError
  | .ok _ => []
  | .error e => [tell e]

/-- What is read, or a fallback. -/
def readOr {ε α : Type} (fallback : α) (reading : Except ε α) : α :=
  reading.toOption.getD fallback

section Judging

variable {α β ε : Type} {violations more : List SettingsError} {value : α} {e : SettingsError}

theorem judged_eq_ok_iff {value' : α} :
    judged violations value = .ok value' ↔ violations = [] ∧ value = value' := by
  cases violations with
  | nil => simp [judged]
  | cons e es => simp [judged]

theorem judged_eq_error_iff : judged violations value = .error e ↔ violations.head? = some e := by
  cases violations with
  | nil => simp [judged]
  | cons e' es => simp [judged]

/-- Checks that are made after others are only made if nothing has been wrong before. -/
theorem judged_bind {f : α → Except SettingsError β} {result : β}
    (next : violations = [] → f value = judged more result) :
    judged violations value >>= f = judged (violations ++ more) result := by
  cases violations with
  | nil => exact next rfl
  | cons e es => rfl

theorem judged_map {f : α → β} :
    (judged violations value >>= fun a => pure (f a)) = judged violations (f value) := by
  cases violations <;> rfl

theorem errorIf_eq_nil_iff {wrong : Prop} [Decidable wrong] : errorIf wrong e = [] ↔ ¬wrong := by
  simp [errorIf]

theorem judged_errorIf_append {wrong : Prop} [Decidable wrong] :
    judged (errorIf wrong e ++ more) value = if wrong then .error e else judged more value := by
  unfold errorIf
  split <;> rfl

theorem judged_errorIf {wrong : Prop} [Decidable wrong] :
    judged (errorIf wrong e) value = if wrong then .error e else .ok value := by
  unfold errorIf
  split <;> rfl

theorem eq_ok_readOr {reading : Except ε α} (read : ∃ a, reading = .ok a) (fallback : α) :
    reading = .ok (readOr fallback reading) := by
  obtain ⟨a, rfl⟩ := read
  rfl

/-- The fallback makes no difference to what can be read. -/
theorem readOr_congr {reading : Except ε α} (read : ∃ a, reading = .ok a) (fallback fallback' : α) :
    readOr fallback reading = readOr fallback' reading := by
  obtain ⟨a, rfl⟩ := read
  rfl

theorem readingErrors_eq_nil_iff {tell : ε → SettingsError} {reading : Except ε α} :
    readingErrors tell reading = [] ↔ ∃ a, reading = .ok a := by
  cases reading <;> simp [readingErrors]

end Judging

/-! ## What is wrong -/

/-- What is wrong with the general settings. -/
def General.violations (g : General) : List SettingsError :=
  readingErrors (.badAddress "listen") (SocketAddress.read g.listen.toList)

/-- What is wrong with the settings of the store.  Both durations are read before either is
compared with zero. -/
def Exporter.violations (e : Exporter) : List SettingsError :=
  let ttl := readDuration e.ttl.toList
  let interval := readDuration e.expirationInterval.toList
  readingErrors (.badDuration "exporter.ttl") ttl ++
    readingErrors (.badDuration "exporter.expiration_interval") interval ++
    errorIf (ttl = .ok 0) (.zero "exporter.ttl") ++
    errorIf (interval = .ok 0) (.zero "exporter.expiration_interval")

/-- What is wrong with the settings of the intake. -/
def ingressViolations (i : IngressSettings) : List SettingsError :=
  errorIf (i.bufferSize = 0) (.zero "ingress.buffer_size") ++
    errorIf (i.maxConnections = 0) (.zero "ingress.max_connections")

/-- What is wrong with a target, after the sources of earlier ones. -/
def targetViolations (earlier : List String) (t : Target) : List SettingsError :=
  errorIf (t.sourceId = "") .emptySource ++
    errorIf (t.sourceId ∈ earlier) (.duplicateSource t.sourceId) ++
    errorIf (t.port = 0) (.zeroPort t.sourceId) ++
    errorIf (t.scheme ≠ "http" ∧ t.scheme ≠ "https") (.badScheme t.sourceId)

/-- What is wrong with the settings of scraping. -/
def Scrape.violations (s : Scrape) : List SettingsError :=
  (s.targets.zipIdx.flatMap fun entry =>
      targetViolations ((s.targets.take entry.2).map (·.sourceId)) entry.1) ++
    errorIf (s.certPath.isSome ≠ s.keyPath.isSome) .loneCredential

/-- What is wrong with the settings of the diagnostic server. -/
def Debug.violations (d : Debug) : List SettingsError :=
  if d.enabled then readingErrors (.badAddress "debug.listen") (SocketAddress.read d.listen.toList)
  else []

/-- All that is wrong, in the order of the checks. -/
def Config.violations (c : Config) : List SettingsError :=
  c.general.violations ++ c.exporter.violations ++ ingressViolations c.ingress ++
    c.scrape.violations ++ c.debug.violations

/-! ## What is kept -/

/-- Where metrics are served, if that is read when it is needed. -/
def General.addressOr (fallback : SocketAddress) (g : General) : SocketAddress :=
  readOr fallback (SocketAddress.read g.listen.toList)

/-- How long a metric lives, if that is read when it is needed. -/
def Exporter.ttlOr (fallback : Nat) (e : Exporter) : Nat :=
  readOr fallback (readDuration e.ttl.toList)

/-- How often the store is swept, if that is read when it is needed. -/
def Exporter.intervalOr (fallback : Nat) (e : Exporter) : Nat :=
  readOr fallback (readDuration e.expirationInterval.toList)

/-- Where the diagnostic server is served, if that is read when it is needed. -/
def Debug.addressOr (fallback : SocketAddress) (d : Debug) : SocketAddress :=
  readOr fallback (SocketAddress.read d.listen.toList)

/-- The settings with everything read when it is needed. -/
def Config.settings (c : Config) : Settings where
  general := ⟨c.general.addressOr ⟨.v4 [0, 0, 0, 0], 14726⟩, c.general.instanceId, c.general.tags⟩
  logLevel := c.logLevel
  exporter := ⟨c.exporter.ttlOr (600 * TimeUnit.perSecond),
    c.exporter.intervalOr (60 * TimeUnit.perSecond), c.exporter.timerTags⟩
  ingress := c.ingress
  scrape := ⟨c.scrape.certPath, c.scrape.keyPath, c.scrape.caPath, c.scrape.targets⟩
  debug := ⟨c.debug.enabled, c.debug.addressOr defaultDebugAddress⟩

/-! ## The checks judge -/

theorem address_eq (setting value : String) (fallback : SocketAddress) :
    address setting value = judged
      (readingErrors (.badAddress setting) (SocketAddress.read value.toList))
      (readOr fallback (SocketAddress.read value.toList)) := by
  unfold address
  cases SocketAddress.read value.toList <;> rfl

theorem duration_eq (setting value : String) (fallback : Nat) :
    duration setting value = judged
      (readingErrors (.badDuration setting) (readDuration value.toList))
      (readOr fallback (readDuration value.toList)) := by
  unfold duration
  cases readDuration value.toList <;> rfl

/-- A duration that could be read is compared with zero. -/
theorem positive_eq {setting : String} {reading : Except DurationError Nat}
    (read : ∃ n, reading = .ok n) (fallback : Nat) :
    positive setting (readOr fallback reading) =
      judged (errorIf (reading = .ok 0) (.zero setting)) () := by
  obtain ⟨n, rfl⟩ := read
  rw [judged_errorIf]
  exact if_congr (Except.ok.injEq n 0).symm.to_iff rfl rfl

theorem General.check_eq (g : General) (fallback : SocketAddress) :
    g.check = judged g.violations ⟨g.addressOr fallback, g.instanceId, g.tags⟩ := by
  rw [General.check, address_eq "listen" g.listen fallback]
  exact judged_map

theorem Exporter.check_eq (e : Exporter) (ttl interval : Nat) :
    e.check = judged e.violations ⟨e.ttlOr ttl, e.intervalOr interval, e.timerTags⟩ := by
  simp only [Exporter.violations, List.append_assoc]
  rw [Exporter.check, duration_eq "exporter.ttl" e.ttl ttl]
  refine judged_bind fun readTtl => ?_
  rw [duration_eq "exporter.expiration_interval" e.expirationInterval interval]
  refine judged_bind fun readInterval => ?_
  rw [positive_eq (readingErrors_eq_nil_iff.mp readTtl)]
  refine judged_bind fun _ => ?_
  rw [positive_eq (readingErrors_eq_nil_iff.mp readInterval)]
  exact judged_map

theorem checkIngress_eq (i : IngressSettings) :
    checkIngress i = judged (ingressViolations i) i := by
  have positive : ∀ setting n, positive setting n = judged (errorIf (n = 0) (.zero setting)) () :=
    fun _ _ => judged_errorIf.symm
  rw [checkIngress, positive]
  refine judged_bind fun _ => ?_
  rw [positive]
  exact judged_map

theorem checkTarget_eq (seen : List String) (t : Target) :
    checkTarget seen t = judged (targetViolations seen t) () := by
  simp only [checkTarget, targetViolations, List.append_assoc, judged_errorIf_append,
    judged_errorIf, List.contains_iff_mem]

/-- In which order the earlier sources are kept does not matter. -/
theorem targetViolations_congr {seen earlier : List String} (same : ∀ id, id ∈ seen ↔ id ∈ earlier)
    (t : Target) : targetViolations seen t = targetViolations earlier t := by
  simp only [targetViolations, same]

/-- Targets are checked in order, each after the sources of those before. -/
theorem checkTargets_eq {seen : List String} {earlier : List Target}
    (same : ∀ id, id ∈ seen ↔ id ∈ earlier.map (·.sourceId)) (targets : List Target) :
    checkTargets seen targets = judged
      ((targets.zipIdx earlier.length).flatMap fun entry =>
        targetViolations (((earlier ++ targets).take entry.2).map (·.sourceId)) entry.1) () := by
  induction targets generalizing seen earlier with
  | nil => rfl
  | cons t targets ih =>
      rw [checkTargets, List.zipIdx_cons, List.flatMap_cons, List.take_left, checkTarget_eq,
        targetViolations_congr same]
      refine judged_bind fun _ => ?_
      have same' : ∀ id, id ∈ t.sourceId :: seen ↔ id ∈ (earlier ++ [t]).map (·.sourceId) := by
        intro id
        simp [same, or_comm]
      rw [ih same', List.length_append, List.append_assoc]
      rfl

theorem Scrape.check_eq (s : Scrape) :
    s.check = judged s.violations ⟨s.certPath, s.keyPath, s.caPath, s.targets⟩ := by
  have none : ∀ id, id ∈ ([] : List String) ↔ id ∈ ([] : List Target).map (·.sourceId) :=
    fun _ => .rfl
  rw [Scrape.check, checkTargets_eq none]
  refine judged_bind fun _ => ?_
  rw [judged_errorIf]
  split <;> rfl

theorem Debug.check_eq (d : Debug) :
    d.check = judged d.violations ⟨d.enabled, d.addressOr defaultDebugAddress⟩ := by
  unfold Debug.check Debug.violations Debug.addressOr
  rw [address_eq "debug.listen" d.listen defaultDebugAddress]
  cases SocketAddress.read d.listen.toList with
  | ok a => cases d.enabled <;> rfl
  | error e => cases d.enabled <;> rfl

/-- What is first wrong with written settings is the error, and if nothing is wrong they are
accepted. -/
theorem Config.check_eq (c : Config) : c.check = judged c.violations c.settings := by
  simp only [Config.violations, List.append_assoc]
  rw [Config.check, General.check_eq]
  refine judged_bind fun _ => ?_
  rw [Exporter.check_eq]
  refine judged_bind fun _ => ?_
  rw [checkIngress_eq]
  refine judged_bind fun _ => ?_
  rw [Scrape.check_eq]
  refine judged_bind fun _ => ?_
  rw [Debug.check_eq]
  exact judged_map

/-! ## Nothing wrong -/

/-- Whether written settings may be used. -/
structure Config.IsSound (c : Config) : Prop where
  /-- Metrics are served at an address. -/
  listen : ∃ a, SocketAddress.read c.general.listen.toList = .ok a
  /-- Metrics live for some time. -/
  ttl : ∃ n, readDuration c.exporter.ttl.toList = .ok n ∧ 0 < n
  /-- The store is swept after some time. -/
  interval : ∃ n, readDuration c.exporter.expirationInterval.toList = .ok n ∧ 0 < n
  /-- Some envelopes may wait. -/
  bufferSize : c.ingress.bufferSize ≠ 0
  /-- Some connections may be open. -/
  maxConnections : c.ingress.maxConnections ≠ 0
  /-- Each target may be scraped. -/
  targets : ∀ t ∈ c.scrape.targets, t.IsSound
  /-- No two of them have one source. -/
  distinct : (c.scrape.targets.map (·.sourceId)).Nodup
  /-- There is a certificate just in case there is a key. -/
  credentials : c.scrape.certPath.isSome = c.scrape.keyPath.isSome
  /-- If the diagnostic server runs, it is served at an address. -/
  debug : c.debug.enabled = true → ∃ a, SocketAddress.read c.debug.listen.toList = .ok a

theorem exists_pos_iff {ε : Type} {reading : Except ε Nat} :
    (∃ n, reading = .ok n ∧ 0 < n) ↔ (∃ n, reading = .ok n) ∧ ¬reading = .ok 0 := by
  cases reading with
  | error e => simp
  | ok n => simp [Nat.pos_iff_ne_zero]

theorem Exporter.violations_eq_nil_iff {e : Exporter} :
    e.violations = [] ↔ (∃ n, readDuration e.ttl.toList = .ok n ∧ 0 < n) ∧
      ∃ n, readDuration e.expirationInterval.toList = .ok n ∧ 0 < n := by
  simp only [violations, List.append_eq_nil_iff, readingErrors_eq_nil_iff, errorIf_eq_nil_iff,
    exists_pos_iff]
  constructor
  · exact fun ⟨⟨⟨ttl, interval⟩, someTtl⟩, someInterval⟩ => ⟨⟨ttl, someTtl⟩, interval, someInterval⟩
  · exact fun ⟨⟨ttl, someTtl⟩, interval, someInterval⟩ => ⟨⟨⟨ttl, interval⟩, someTtl⟩, someInterval⟩

theorem targetViolations_eq_nil_iff {seen : List String} {t : Target} :
    targetViolations seen t = [] ↔ t.IsSound ∧ t.sourceId ∉ seen := by
  simp only [targetViolations, List.append_eq_nil_iff, errorIf_eq_nil_iff]
  constructor
  · rintro ⟨⟨⟨named, new⟩, port⟩, scheme⟩
    exact ⟨⟨named, port, Decidable.or_iff_not_not_and_not.mpr scheme⟩, new⟩
  · rintro ⟨⟨named, port, scheme⟩, new⟩
    exact ⟨⟨⟨named, new⟩, port⟩, Decidable.or_iff_not_not_and_not.mp scheme⟩

theorem checkTarget_eq_ok_iff {seen : List String} {t : Target} :
    checkTarget seen t = .ok () ↔ t.IsSound ∧ t.sourceId ∉ seen := by
  rw [checkTarget_eq, judged_eq_ok_iff, targetViolations_eq_nil_iff]
  exact and_iff_left rfl

/-- Targets are accepted if each of them may be scraped and has a source of its own. -/
theorem checkTargets_eq_ok_iff {seen : List String} {targets : List Target} :
    checkTargets seen targets = .ok () ↔
      (∀ t ∈ targets, t.IsSound ∧ t.sourceId ∉ seen) ∧ (targets.map (·.sourceId)).Nodup := by
  induction targets generalizing seen with
  | nil => exact ⟨fun _ => ⟨nofun, List.nodup_nil⟩, fun _ => rfl⟩
  | cons t targets ih =>
      rw [checkTargets, bind_eq_ok_iff, List.forall_mem_cons, List.map_cons, List.nodup_cons]
      constructor
      · rintro ⟨_, first, others⟩
        obtain ⟨sound, distinct⟩ := ih.mp others
        refine ⟨⟨checkTarget_eq_ok_iff.mp first, fun t' there => ?_⟩, fun again => ?_, distinct⟩
        · exact ⟨(sound t' there).1, fun old => (sound t' there).2 (List.mem_cons_of_mem _ old)⟩
        · obtain ⟨t', there, same⟩ := List.mem_map.mp again
          exact (sound t' there).2 (same ▸ List.mem_cons_self)
      · rintro ⟨⟨first, others⟩, new, distinct⟩
        refine ⟨(), checkTarget_eq_ok_iff.mpr first, ih.mpr ⟨fun t' there => ?_, distinct⟩⟩
        refine ⟨(others t' there).1, fun old => ?_⟩
        rcases List.mem_cons.mp old with same | old
        · exact new (same ▸ List.mem_map_of_mem there)
        · exact (others t' there).2 old

theorem Scrape.violations_eq_nil_iff {s : Scrape} :
    s.violations = [] ↔ (∀ t ∈ s.targets, t.IsSound) ∧ (s.targets.map (·.sourceId)).Nodup ∧
      s.certPath.isSome = s.keyPath.isSome := by
  have none : ∀ id, id ∈ ([] : List String) ↔ id ∈ ([] : List Target).map (·.sourceId) :=
    fun _ => .rfl
  have targets :
      (s.targets.zipIdx.flatMap fun entry =>
          targetViolations ((s.targets.take entry.2).map (·.sourceId)) entry.1) = [] ↔
        checkTargets [] s.targets = .ok () := by
    rw [checkTargets_eq none, judged_eq_ok_iff]
    exact (and_iff_left rfl).symm
  rw [violations, List.append_eq_nil_iff, targets, checkTargets_eq_ok_iff, errorIf_eq_nil_iff,
    not_not]
  simp only [List.not_mem_nil, not_false_eq_true, and_true, and_assoc]

theorem Debug.violations_eq_nil_iff {d : Debug} :
    d.violations = [] ↔
      (d.enabled = true → ∃ a, SocketAddress.read d.listen.toList = .ok a) := by
  unfold violations
  cases d.enabled with
  | false => simp
  | true => simp [readingErrors_eq_nil_iff]

/-- Nothing is wrong with settings just in case they are sound. -/
theorem Config.violations_eq_nil_iff {c : Config} : c.violations = [] ↔ c.IsSound := by
  simp only [violations, General.violations, ingressViolations, List.append_eq_nil_iff,
    readingErrors_eq_nil_iff, errorIf_eq_nil_iff, Exporter.violations_eq_nil_iff,
    Scrape.violations_eq_nil_iff, Debug.violations_eq_nil_iff]
  constructor
  · rintro ⟨⟨⟨⟨listen, ttl, interval⟩, buffer, connections⟩, targets, distinct, both⟩, debug⟩
    exact ⟨listen, ttl, interval, buffer, connections, targets, distinct, both, debug⟩
  · rintro ⟨listen, ttl, interval, buffer, connections, targets, distinct, both, debug⟩
    exact ⟨⟨⟨⟨listen, ttl, interval⟩, buffer, connections⟩, targets, distinct, both⟩, debug⟩

/-- What stands for settings that are left out is sound. -/
theorem Config.isSound_default : ({} : Config).IsSound :=
  violations_eq_nil_iff.mp (by decide +kernel)

/-- Settings are accepted just in case they are sound. -/
theorem Config.check_eq_ok_iff {c : Config} {settings : Settings} :
    c.check = .ok settings ↔ c.IsSound ∧ c.settings = settings := by
  rw [check_eq, judged_eq_ok_iff, violations_eq_nil_iff]

/-- The targets of accepted settings. -/
theorem targets_of_check {c : Config} {settings : Settings} (accepted : c.check = .ok settings) :
    settings.scrape.targets = c.scrape.targets ∧
      (∀ t ∈ settings.scrape.targets, t.IsSound) ∧
      (settings.scrape.targets.map (·.sourceId)).Nodup := by
  obtain ⟨sound, rfl⟩ := Config.check_eq_ok_iff.mp accepted
  exact ⟨rfl, sound.targets, sound.distinct⟩

end Written

end Telemetry
