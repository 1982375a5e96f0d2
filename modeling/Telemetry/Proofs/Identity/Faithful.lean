import Telemetry.Proofs.Collector.AllOrNothing
import Telemetry.Proofs.Identity
import Telemetry.Proofs.Totals

/-!
# Identities are faithful

A measurement is identified by its name and by the labels that count for it
(`Measurement.identifying`).  Making names valid may give two metrics one name, and it
does so with `a.b` and `a_b`.  They are still told apart, since the name that was given is
among these labels, in base 64.  So an identity tells the name that was given, and the
labels that count.  It tells besides whether a duration was measured, although no label
says so: the ending of timers makes one of two names longer that were given the same
(`Envelope.Becomes.identity_eq_iff`).

So metrics that were given different names never get into each other's way.  A write leaves
alone what is kept of other names (`Envelope.Becomes.find?_writeIn`), and what is kept has
been made of one name only (`Envelope.Becomes.made_of_found`).

All of this holds of fingerprints as well, as far as the hash tells apart what it is fed
(`Fingerprint.faithful`).
-/

namespace Telemetry

/-! ## What identifies a measurement -/

/-- The labels that count: all of them, save for the unit of a gauge. -/
def Measurement.identifying (m : Measurement) : Labels :=
  match m.reading with
  | .gauge _ => m.labels.erase unitLabel
  | _ => m.labels

theorem Measurement.identifyingLabels_eq (m : Measurement) :
    identifyingLabels m.labels m.reading = m.identifying.toList := by
  rw [identifying]
  cases m.reading with
  | counter value => rfl
  | gauge value =>
      refine List.filter_congr fun label _ => ?_
      rw [decide_not, bne, Bool.beq_eq_decide_eq]
  | duration seconds => rfl

/-- The name of a metric, before it is made valid, is the given one or that of a timer. -/
theorem Envelope.sanitize_named {e : Envelope} {t : Told} (there : t ∈ e.told) :
    sanitize isMetricChar t.named = metricName t.reading.isDuration t.given := by
  rw [told] at there
  cases message : e.message with
  | none =>
      rw [message] at there
      cases there
  | some message' =>
      rw [message] at there
      cases message' with
      | counter c =>
          obtain rfl := List.mem_singleton.mp there
          rfl
      | gauge readings =>
          obtain ⟨reading, -, rfl⟩ := List.mem_map.mp there
          rfl
      | timer t =>
          obtain rfl := List.mem_singleton.mp there
          rfl

/-- Whether a measurement is what becomes of a thing that an envelope tells, when the envelope is
converted in some order. -/
structure Envelope.Becomes (defaults : Dict String) (e : Envelope) (t : Told) (m : Measurement) :
    Prop where
  /-- The envelope tells the thing. -/
  told : t ∈ e.told
  /-- The measurement comes of a conversion. -/
  converted : ∃ order ms, order.Fair ∧ (convertIn order defaults e).result = .ok ms ∧ m ∈ ms
  /-- It is that of the thing. -/
  measured : m = e.measured defaults t

/-- What comes of a conversion has been told. -/
theorem Envelope.exists_becomes {order : ConversionOrder} (fair : order.Fair)
    {defaults : Dict String} {e : Envelope} {ms : List Measurement}
    (made : (convertIn order defaults e).result = .ok ms) {m : Measurement} (there : m ∈ ms) :
    ∃ t, e.Becomes defaults t m := by
  obtain ⟨t, told, rfl⟩ := List.mem_map.mp ((measured_of_converted fair made).1.mem_iff.mp there)
  exact ⟨t, told, ⟨order, ms, fair, made, there⟩, rfl⟩

namespace Envelope.Becomes

variable {defaults : Dict String} {e e' : Envelope} {t t' : Told} {m m' : Measurement}

theorem measurable (becomes : e.Becomes defaults t m) : e.Measurable defaults t := by
  obtain ⟨order, ms, fair, made, -⟩ := becomes.converted
  exact (measured_of_converted fair made).2 t becomes.told

theorem identity (becomes : e.Becomes defaults t m) :
    m.identity = .of (metricName m.reading.isDuration t.given) m.identifying.toList := by
  have reading : m.reading = t.reading := congrArg (·.reading) becomes.measured
  have whole : m.identity = .of m.name (identifyingLabels m.labels m.reading) := by
    rw [becomes.measured]
    rfl
  have name : m.name = sanitize isMetricChar t.named := congrArg (·.name) becomes.measured
  rw [whole, m.identifyingLabels_eq, name, reading, sanitize_named becomes.told]

/-- The labels that count tell the name that was given. -/
theorem get?_identifying (becomes : e.Becomes defaults t m) :
    m.identifying.get? givenNameLabel = some (Text.base64OfString t.given) := by
  have label : m.labels.get? givenNameLabel = some (Text.base64OfString t.given) := by
    rw [becomes.measured]
    exact becomes.measurable.get?_labels.mpr (mem_pairs_given defaults e t)
  have counts : _ ∈ identifyingLabels m.labels m.reading := mem_identifyingLabels label
  rw [m.identifyingLabels_eq] at counts
  exact Dict.get?_eq_some_iff.mpr counts

/-- An identity tells the name that was given, whether a duration was measured, and the labels that
count, and nothing else. -/
theorem identity_eq_iff (becomes : e.Becomes defaults t m) (becomes' : e'.Becomes defaults t' m') :
    m.identity = m'.identity ↔
      t.given = t'.given ∧ m.reading.isDuration = m'.reading.isDuration ∧
        m.identifying = m'.identifying := by
  rw [becomes.identity, becomes'.identity, Identity.of_toList_eq_iff]
  constructor
  · rintro ⟨names, labels⟩
    have given : t.given = t'.given := by
      have label := becomes.get?_identifying
      rw [labels, becomes'.get?_identifying] at label
      exact (Text.base64OfString_injective (Option.some.inj label)).symm
    exact ⟨given, metricName_left_inj (given ▸ names), labels⟩
  · rintro ⟨given, duration, labels⟩
    rw [given, duration, labels]
    exact ⟨rfl, rfl⟩

end Envelope.Becomes

/-! ## What is kept -/

/-- What is kept of a measurement is left alone by envelopes that tell nothing of the name it was
given, whether they are written or refused. -/
theorem Envelope.Becomes.find?_writeIn {e e' : Envelope} {t : Told} {m : Measurement}
    {c : Collector} (becomes : e.Becomes c.defaults t m) {order : ConversionOrder}
    (fair : order.Fair) (others : ∀ t' ∈ e'.told, t'.given ≠ t.given) (d : Diagnostics) (now : Nat)
    (sourceId : String) :
    (c.writeIn order d e' now).1.store.find? sourceId m.identity =
      c.store.find? sourceId m.identity := by
  simp only [Collector.writeIn]
  cases made : (convertIn order c.defaults e').result with
  | error error => rfl
  | ok ms =>
      refine Store.find?_write_of_not_mem _ _ _ fun _ m' there same => ?_
      obtain ⟨t', becomes'⟩ := exists_becomes fair made there
      exact others t' becomes'.told ((becomes'.identity_eq_iff becomes).mp same).1

/-- Whatever a run does, what is found in the end under the identity of a measurement has been made
of measurements that might as well be this one: they were given its name, and they share the labels
that count. -/
theorem Envelope.Becomes.made_of_found {defaults : Dict String} {e : Envelope} {t : Told}
    {m : Measurement} (becomes : e.Becomes defaults t m) {ttl : Nat} {d : Diagnostics}
    {steps : List Collector.Step} {sourceId : String} {kept : StoredMetric}
    (found : (Collector.run (.fresh defaults ttl, d) steps).1.store.find? sourceId m.identity =
      some kept) :
    ∃ written, StoredMetric.afterAll none written = some kept ∧
      ∀ w ∈ written, ∃ e' t', .write e' w.2 ∈ steps ∧ e'.Becomes defaults t' w.1 ∧
        t'.given = t.given ∧ w.1.reading.isDuration = m.reading.isDuration ∧
          w.1.identifying = m.identifying := by
  obtain ⟨before, since, rfl, -, made⟩ := Collector.find?_run_eq_some found
  refine ⟨_, made, fun w there => ?_⟩
  obtain ⟨e', taken, -, among, same⟩ := Collector.exists_write_of_mem_writes there
  obtain ⟨ms, converted, among⟩ := mem_measurements_iff.mp among
  obtain ⟨t', becomes'⟩ := exists_becomes ConversionOrder.fair_id converted among
  exact ⟨e', t', List.mem_append_right before taken, becomes',
    (becomes'.identity_eq_iff becomes).mp same⟩

/-! ## Fingerprints -/

/-- Whether fingerprints tell what they should, as far as what is hashed is among some bytes. -/
structure Fingerprint.Faithful (hash : List UInt8 → UInt64) (fed : Set (List UInt8)) : Prop where
  /-- A fingerprint tells a name, and labels in no order. -/
  labelled : ∀ {name name' : String} {labels labels' : List (String × String)},
    (Identity.of name labels).bytes ∈ fed → (Identity.of name' labels').bytes ∈ fed →
      ((Identity.of name labels).fingerprint hash = (Identity.of name' labels').fingerprint hash ↔
        name = name' ∧ labels.Perm labels')
  /-- Every measurement becomes of a thing that was told. -/
  told : ∀ {order : ConversionOrder}, order.Fair → ∀ {defaults : Dict String} {e : Envelope}
    {ms : List Measurement}, (convertIn order defaults e).result = .ok ms →
      ∀ m ∈ ms, ∃ t, e.Becomes defaults t m
  /-- The fingerprint of a measurement tells the name that was given to the thing, whether it is a
  duration, and the labels that count. -/
  measured : ∀ {defaults : Dict String} {e e' : Envelope} {t t' : Told} {m m' : Measurement},
    e.Becomes defaults t m → e'.Becomes defaults t' m' →
      m.identity.bytes ∈ fed → m'.identity.bytes ∈ fed →
        (m.identity.fingerprint hash = m'.identity.fingerprint hash ↔
          t.given = t'.given ∧ m.reading.isDuration = m'.reading.isDuration ∧
            m.identifying = m'.identifying)
  /-- It makes no difference whether a store goes by fingerprints or by identities. -/
  identities : ∀ {id id' : Identity}, id.bytes ∈ fed → id'.bytes ∈ fed →
    (id.fingerprint hash = id'.fingerprint hash ↔ id = id')
  /-- A store keeps a measurement as it is when an envelope comes that tells nothing of the name
  that was given, whatever becomes of the names. -/
  kept : ∀ {c : Collector} {e e' : Envelope} {t : Told} {m : Measurement},
    e.Becomes c.defaults t m → (∀ t' ∈ e'.told, t'.given ≠ t.given) →
      ∀ {order : ConversionOrder}, order.Fair → ∀ (d : Diagnostics) (now : Nat) (sourceId : String),
        (c.writeIn order d e' now).1.store.find? sourceId m.identity =
          c.store.find? sourceId m.identity
  /-- After any run, what is found of a measurement has been made of things that were given the
  same name, are durations both or neither, and have the same labels that count. -/
  found : ∀ {defaults : Dict String} {e : Envelope} {t : Told} {m : Measurement},
    e.Becomes defaults t m → ∀ {ttl : Nat} {d : Diagnostics} {steps : List Collector.Step}
      {sourceId : String} {kept : StoredMetric},
        (Collector.run (.fresh defaults ttl, d) steps).1.store.find? sourceId m.identity =
          some kept →
        ∃ written, StoredMetric.afterAll none written = some kept ∧
          ∀ w ∈ written, ∃ e' t', .write e' w.2 ∈ steps ∧ e'.Becomes defaults t' w.1 ∧
            t'.given = t.given ∧ w.1.reading.isDuration = m.reading.isDuration ∧
              w.1.identifying = m.identifying

/-- Fingerprints are faithful as far as the hash tells apart what it is fed. -/
theorem Fingerprint.faithful {hash : List UInt8 → UInt64} {fed : Set (List UInt8)}
    (injective : Set.InjOn hash fed) : Faithful hash fed where
  labelled given given' :=
    (Identity.fingerprint_eq_iff injective given given').trans Identity.of_eq_iff
  told fair _ _ _ made _ there := Envelope.exists_becomes fair made there
  measured becomes becomes' given given' :=
    (Identity.fingerprint_eq_iff injective given given').trans (becomes.identity_eq_iff becomes')
  identities given given' := Identity.fingerprint_eq_iff injective given given'
  kept becomes others _ fair d now sourceId := becomes.find?_writeIn fair others d now sourceId
  found becomes _ _ _ _ _ found := becomes.made_of_found found

/-- A timer, two counters and a gauge whose metrics have one name. -/
def sameNames : List Envelope :=
  let readings : Dict GaugeReading := .ofList [("a.b_seconds", ⟨.ofNat 1, "s"⟩)]
  [.timer ⟨"a.b", 0, 1⟩, .counter ⟨"a.b_seconds", 1, 1⟩, .counter ⟨"a_b_seconds", 1, 1⟩,
    .gauge readings].map fun message => ⟨"svc", "", .empty, some message⟩

/-- They have three fingerprints, since one of the counters was given the name of the gauge, and
the unit of the gauge does not count. -/
theorem faithful_sameNames :
    let ms := sameNames.flatMap (measurements .empty)
    let fed := {bytes | bytes ∈ ms.map (·.identity.bytes)}
    Set.InjOn sipHash fed ∧ Fingerprint.Faithful sipHash fed ∧
      (∀ e ∈ sameNames, ∀ m ∈ measurements .empty e, ∃ t, e.Becomes .empty t m) ∧
      ms.map (·.name) = List.replicate 4 "a_b_seconds" ∧
      ms.map (·.identity.fingerprint sipHash) =
        [⟨"a_b_seconds", 5882500857973117079⟩, ⟨"a_b_seconds", 16717399501569970250⟩,
          ⟨"a_b_seconds", 12140869843373839400⟩, ⟨"a_b_seconds", 16717399501569970250⟩] := by
  intro ms fed
  have injective : Set.InjOn sipHash fed := by
    have all : ∀ a ∈ ms.map (·.identity.bytes), ∀ b ∈ ms.map (·.identity.bytes),
        sipHash a = sipHash b → a = b := by
      decide +kernel
    exact fun a there b there' same => all a there b there' same
  have faithful := Fingerprint.faithful injective
  have made : ∀ e ∈ sameNames, (convert .empty e).result = .ok (measurements .empty e) := by
    decide +kernel
  refine ⟨injective, faithful, fun e there => ?_, ?_, ?_⟩
  · exact faithful.told ConversionOrder.fair_id (made e there)
  all_goals decide +kernel

end Telemetry
