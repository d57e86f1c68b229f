/-
  What the clock does to the timers.

  A time stamp is the low 32 bits of a clock reading.  `_checkPing` takes the low 32 bits of the clock too, and
  the difference of the two is right up to 2^32 milliseconds (`checkPing_punctual`).  On Linux `_checkTimeout`
  takes all of the clock, and after the first 2^32 milliseconds the difference is too large by a multiple of
  2^32, so the timeout is always over (`punctual_iff`).
-/
import EspMqttClient.MqttClient.Equiv.Queued
import Mathlib.Data.List.Induction

namespace EspMqttClient

/-! ### Time stamps -/

/-- The difference of two stamps is the time between them, as long as it fits in 32 bits. -/
theorem toNat_sub_stamp {s t : ℕ} (hpast : s ≤ t) (hrecent : t - s < 2 ^ 32) :
    (UInt32.ofNat t - UInt32.ofNat s).toNat = t - s := by
  rw [UInt32.toNat_sub, UInt32.toNat_ofNat', UInt32.toNat_ofNat']
  omega

theorem lt_sub_stamp {s t : ℕ} (hpast : s ≤ t) (hrecent : t - s < 2 ^ 32) (limit : UInt32) :
    UInt32.ofNat t - UInt32.ofNat s > limit ↔ limit.toNat < t - s := by
  rw [gt_iff_lt, UInt32.lt_iff_toNat_lt, toNat_sub_stamp hpast hrecent]

/-- When all of the clock meets a stamp that lost something, the timeout is over. -/
theorem MqttClient.timedOut_iff (cfg : Config) {s t : ℕ} (hpast : s ≤ t) (hrecent : t - s < 2 ^ 32)
    (timeout : UInt32) :
    timedOut cfg t (UInt32.ofNat s) timeout ↔ timeout.toNat < t - s ∨ (cfg.wideMillis ∧ 2 ^ 32 ≤ s) := by
  have hbound : timeout.toNat < 2 ^ 32 := timeout.toNat_lt
  rw [timedOut]
  cases cfg.wideMillis with
  | false => simpa using lt_sub_stamp hpast hrecent timeout
  | true =>
    simp only [if_true, decide_eq_true_eq, UInt32.toNat_ofNat', true_and]
    omega

/-! ### Settings -/

namespace Settings

variable {cfg : Config}

/-- What the setters make of the settings of a new client. -/
def after (cfg : Config) (generatedClientId : CString) (settings : List Setting) : Settings :=
  settings.foldl set (new cfg generatedClientId)

/-- A keepalive time is a 16-bit number of seconds, or the default. -/
theorem keepAlive_set_le {s : Settings} (hs : s.keepAlive.toNat ≤ 65535000) (setting : Setting) :
    (s.set setting).keepAlive.toNat ≤ 65535000 := by
  cases setting with
  | keepAlive keepAlive =>
    have hbound : keepAlive.toNat < 2 ^ 16 := keepAlive.toNat_lt
    have hproduct : keepAlive.toNat * 1000 < 2 ^ 32 := by omega
    simp only [set, UInt32.toNat_mul, UInt16.toNat_toUInt32, UInt32.reduceToNat]
    rw [Nat.mod_eq_of_lt hproduct]
    omega
  | clientId | cleanSession | credentials | will | timeout | callback => exact hs

theorem keepAlive_after_le (cfg : Config) (generatedClientId : CString) (settings : List Setting) :
    (after cfg generatedClientId settings).keepAlive.toNat ≤ 65535000 := by
  rw [after]
  induction settings using List.reverseRecOn with
  | nil => exact (by decide : (15000 : UInt32).toNat ≤ 65535000)
  | append_singleton settings setting ih =>
    rw [List.foldl_append]
    exact keepAlive_set_le ih setting

end Settings

/-! ### Moments -/

/-- When the first packet was written last and when the client and the server were active last, by the steady
clock. -/
structure Moments where
  sent : ℕ
  client : ℕ
  server : ℕ

/-- They are past, and less than 2^32 ms ago. -/
structure Moments.Recent (m : Moments) (now : ℕ) : Prop where
  sent : m.sent ≤ now ∧ now - m.sent < 2 ^ 32
  client : m.client ≤ now ∧ now - m.client < 2 ^ 32
  server : m.server ≤ now ∧ now - m.server < 2 ^ 32

namespace MqttClient

variable {cfg : Config} {env : Env cfg}

/-- The time stamps of the client were taken at these moments. -/
structure Stamped (c : MqttClient cfg) (m : Moments) : Prop where
  sent : ∀ front ∈ c.outbox.items.head?, front.timeSent = UInt32.ofNat m.sent
  client : c.lastClientActivity = UInt32.ofNat m.client
  server : c.lastServerActivity = UInt32.ofNat m.server

/-- Such an event was noted in between. -/
def Notes (event : Event) (c c' : MqttClient cfg) : Prop :=
  ∃ new, c'.log = new ++ c.log ∧ ∃ r ∈ new, r.event = event

/-- `_checkTimeout` compares the clock: the first packet was sent and no other is under way. -/
def LooksAtClock (c : MqttClient cfg) : Prop :=
  c.outbox.items ≠ [] ∧ c.bytesSent = 0 ∧ c.outbox.cursor ≠ 0

/-- The timers do nothing before its time: the cursor goes back when the timeout is over, the connection is
given up when the server was inactive for twice the keepalive time, and a PINGREQ is added when one of the
two was inactive for the keepalive time. -/
structure Punctual (env : Env cfg) (c : MqttClient cfg) (m : Moments) : Prop where
  resets : (c.checkTimeout env).outbox.cursor ≠ c.outbox.cursor →
    c.settings.timeout.toNat < env.millis c.tick - m.sent
  disconnects : Notes (.fault .keepAlive) c (c.checkPing env) →
    2 * c.settings.keepAlive.toNat < env.millis c.tick - m.server
  pings : Notes .ping c (c.checkPing env) →
    c.settings.keepAlive.toNat < env.millis c.tick - m.client ∨
      c.settings.keepAlive.toNat < env.millis c.tick - m.server

/-! ### `_checkTimeout` -/

theorem cursor_checkTimeout (c : MqttClient cfg) {m : Moments} (hc : c.Stamped m)
    (hm : m.Recent (env.millis c.tick)) :
    (c.checkTimeout env).outbox.cursor ≠ c.outbox.cursor ↔
      c.LooksAtClock ∧ (c.settings.timeout.toNat < env.millis c.tick - m.sent ∨
        (cfg.wideMillis ∧ 2 ^ 32 ≤ m.sent)) := by
  rw [checkTimeout]
  split
  next hitems =>
    have hblind : ¬ c.LooksAtClock := fun h => h.1 hitems
    simp [hblind]
  next front rest hitems =>
    have hsent : front.timeSent = UInt32.ofNat m.sent := hc.sent front (by rw [hitems]; rfl)
    have hlooks : c.LooksAtClock ↔ c.bytesSent = 0 ∧ c.outbox.cursor ≠ 0 := by
      rw [LooksAtClock, hitems]
      simp
    dsimp only
    rw [hsent, hlooks, ← timedOut_iff cfg hm.sent.1 hm.sent.2]
    split_ifs with hlooking htimedOut
    · have hcursor : c.outbox.resetCurrent.cursor ≠ c.outbox.cursor := fun h => hlooking.2 h.symm
      exact ⟨fun _ => ⟨hlooking, htimedOut⟩, fun _ => hcursor⟩
    · exact ⟨fun h => absurd rfl h, fun h => absurd h.2 htimedOut⟩
    · exact ⟨fun h => absurd rfl h, fun h => absurd h.1 hlooking⟩

/-! ### `_checkPing` -/

/-- An event that is not among those that the log grew by was not noted. -/
theorem not_notes {p : Event → Bool} {c c' : MqttClient cfg} {event : Event} (h : Grows p c c')
    (hevent : p event = false) : ¬ Notes event c c' := by
  obtain ⟨noted, hnoted, hp⟩ := h
  rintro ⟨new, hnew, r, hr, rfl⟩
  have hsame : new = noted := List.append_cancel_right (hnew.symm.trans hnoted)
  exact absurd (hp r (hsame ▸ hr)) (by simp [hevent])

theorem not_notes_self {c c' : MqttClient cfg} (h : c'.log = c.log) (event : Event) : ¬ Notes event c c' :=
  not_notes (grows_of_log h : Grows (fun _ => false) c c') rfl

theorem checkPing_punctual (c : MqttClient cfg) {m : Moments} (hc : c.Stamped m)
    (hm : m.Recent (env.millis c.tick)) (hkeepAlive : c.settings.keepAlive.toNat ≤ 65535000) :
    (Notes (.fault .keepAlive) c (c.checkPing env) →
      2 * c.settings.keepAlive.toNat < env.millis c.tick - m.server) ∧
    (Notes .ping c (c.checkPing env) →
      c.settings.keepAlive.toNat < env.millis c.tick - m.client ∨
        c.settings.keepAlive.toNat < env.millis c.tick - m.server) := by
  have hdouble : (2 * c.settings.keepAlive).toNat = 2 * c.settings.keepAlive.toNat := by
    rw [UInt32.toNat_mul]
    exact Nat.mod_eq_of_lt (by simp; omega)
  have hclient (limit : UInt32) : c.millis env - c.lastClientActivity > limit ↔
      limit.toNat < env.millis c.tick - m.client := hc.client ▸ lt_sub_stamp hm.client.1 hm.client.2 limit
  have hserver (limit : UInt32) : c.millis env - c.lastServerActivity > limit ↔
      limit.toNat < env.millis c.tick - m.server := hc.server ▸ lt_sub_stamp hm.server.1 hm.server.2 limit
  rw [checkPing]
  dsimp only
  split_ifs with hzero hinactive hping
  · exact ⟨fun h => absurd h (not_notes_self rfl _), fun h => absurd h (not_notes_self rfl _)⟩
  · -- the server was inactive for too long, and no PINGREQ is added
    have hgrows : Grows (fun event => !event.isCalm) c (c.asked.lost .keepAlive) :=
      grows_of_cons_cons rfl rfl rfl
    exact ⟨fun _ => hdouble ▸ (hserver _).mp hinactive, fun h => absurd h (not_notes hgrows rfl)⟩
  · -- a PINGREQ is due, and the connection is not given up
    refine ⟨fun h => absurd h (not_notes (p := Event.isCalm) ?_ rfl), fun _ => ?_⟩
    · rcases addPacket_cases env c.asked fun alloc =>
        Packet.control cfg alloc PacketType.PINGREQ with ⟨_, -, hadd⟩ | ⟨-, hadd⟩
      · rw [hadd]
        exact grows_of_cons rfl rfl
      · rw [hadd]
        exact grows_of_log rfl
    · exact hping.2.imp (hclient _).mp (hserver _).mp
  · exact ⟨fun h => absurd h (not_notes_self rfl _), fun h => absurd h (not_notes_self rfl _)⟩

/-! ### Punctuality -/

/-- **The timers are punctual** exactly when the 32 bits of a time stamp are enough: when the clock has no more,
when the first packet was sent in the first 2^32 milliseconds, or when the timeout is over anyway. -/
theorem punctual_iff {c : MqttClient cfg} {m : Moments} (hc : c.Stamped m) (hm : m.Recent (env.millis c.tick))
    {generatedClientId : CString} {settings : List Setting}
    (hsettings : c.settings = .after cfg generatedClientId settings) :
    Punctual env c m ↔ (c.LooksAtClock → cfg.wideMillis → 2 ^ 32 ≤ m.sent →
      c.settings.timeout.toNat < env.millis c.tick - m.sent) := by
  have hkeepAlive : c.settings.keepAlive.toNat ≤ 65535000 :=
    hsettings ▸ Settings.keepAlive_after_le cfg generatedClientId settings
  obtain ⟨hdisconnects, hpings⟩ := checkPing_punctual c hc hm hkeepAlive
  have hresets := cursor_checkTimeout c hc hm
  constructor
  · intro h hlooks hwide hlate
    exact h.resets (hresets.mpr ⟨hlooks, .inr ⟨hwide, hlate⟩⟩)
  · intro h
    refine ⟨fun hreset => ?_, hdisconnects, hpings⟩
    obtain ⟨hlooks, hover | ⟨hwide, hlate⟩⟩ := hresets.mp hreset
    · exact hover
    · exact h hlooks hwide hlate

/-- The CONNACK, and nothing else is read. -/
def clockScript : Script where
  read := [(9, [0x20, 2, 0, 0])]

/-- A clock that begins somewhere and goes on by a millisecond with every question. -/
def ticking (start : ℕ) : Env .linux :=
  { clockScript.env .linux with millis := fun tick => start + tick }

/-- A client that comes to `_checkTimeout` when it has just sent a PUBLISH. -/
def justSent (start : ℕ) : MqttClient .linux :=
  let c := (new .linux ⟨[0x7A], by decide⟩).run (ticking start) [.call .connect, .loop, .loop,
    .call (.publish ⟨[0x78], by decide⟩ 1 false [0x41])]
  ((c.asked.checkOutbox (ticking start)).checkIncoming (ticking start)).checkPing (ticking start)

/-- When that was. -/
def justNow (start : ℕ) : Moments := ⟨start + 16, start + 17, start + 10⟩

theorem punctual_iff_early : Punctual (ticking 0) (justSent 0) (justNow 0) := by
  have hstamped : (justSent 0).Stamped (justNow 0) :=
    ⟨by decide +kernel, by decide +kernel, by decide +kernel⟩
  have hrecent : (justNow 0).Recent ((ticking 0).millis (justSent 0).tick) :=
    ⟨by decide +kernel, by decide +kernel, by decide +kernel⟩
  have hsettings : (justSent 0).settings = .after .linux ⟨[0x7A], by decide⟩ [] := rfl
  refine (punctual_iff hstamped hrecent hsettings).mpr fun _ _ hlate => ?_
  exact absurd hlate (by decide)

/-- After 2^32 milliseconds the timeout is over four milliseconds after the PUBLISH was sent. -/
theorem not_punctual_all : ¬ ∀ (c : MqttClient .linux) (m : Moments), c.Stamped m →
    m.Recent ((ticking (2 ^ 32)).millis c.tick) → Punctual (ticking (2 ^ 32)) c m := by
  intro h
  have hpunctual := h (justSent (2 ^ 32)) (justNow (2 ^ 32))
    ⟨by decide +kernel, by decide +kernel, by decide +kernel⟩
    ⟨by decide +kernel, by decide +kernel, by decide +kernel⟩
  have hreset := hpunctual.resets (by decide +kernel)
  exact absurd hreset (by decide +kernel)

end MqttClient

end EspMqttClient
