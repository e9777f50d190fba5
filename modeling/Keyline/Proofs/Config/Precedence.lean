import Keyline.CommandLine.Server
import Keyline.Proofs.Config.Members

/-!
# Arguments before documents before defaults

Each setting of a server is what the arguments make it; where they leave it open, what the document
makes it; and where that leaves it open too, its default. A switch can only be turned off by an
argument, and some settings have no argument. A document that is not there is as good as an empty
object. One with a member that cannot be taken over is refused, whatever the arguments are.
-/
namespace Keyline

namespace Config

open Json (Token Problem Value)
open Json.Value (memberTokens)

/-- The tokens of the document at a path, if it can be read and is text. -/
def tokensAt? (t : FileTree) (path : Path) : Option (List Token) :=
  ((t.readPath path).toOption.bind Utf8.decode?).map fun s => Token.scan s.toList

theorem readPath_of_tokens {t : FileTree} {path : Path} {ts : List Token}
    (h : tokensAt? t path = some ts) : ∃ bs s, t.readPath path = .ok bs ∧
      Utf8.decode? bs = some s ∧ Token.scan s.toList = ts := by
  obtain ⟨s, hs, scanned⟩ := Option.map_eq_some_iff.1 h
  obtain ⟨bs, hbs, decoded⟩ := Option.bind_eq_some_iff.1 hs
  refine ⟨bs, s, ?_, decoded, scanned⟩
  cases hr : t.readPath path with
  | error f => rw [hr] at hbs; cases hbs
  | ok cs => rw [hr] at hbs; cases hbs; rfl

section
variable {t : FileTree} {path : Path} {ts : List Token}

theorem ofFile_of_read {o : Overlay} (tokens : tokensAt? t path = some ts)
    (read : Overlay.read ts = .ok o) : ofFile t path = .ok (o.apply {}) := by
  obtain ⟨bs, s, found, decoded, rfl⟩ := readPath_of_tokens tokens
  rw [ofFile, found]
  simp only [decoded, read]

theorem ofFile_of_refused {p : Problem} (tokens : tokensAt? t path = some ts)
    (refused : Overlay.read ts = .error p) : ofFile t path =
      .error (.configuration ("invalid config file " ++ path.text ++ ": " ++ p.message)) := by
  obtain ⟨bs, s, found, decoded, rfl⟩ := readPath_of_tokens tokens
  rw [ofFile, found]
  simp only [decoded, refused]

end

/-- The members that settings are taken from: those of the document that is asked for, and none
where no document is asked for or the one that is asked for is not there. -/
inductive Stated (t : FileTree) : Option Path → List (String × Value) → Prop
  | unasked : Stated t none []
  | missing {path : Path} (absent : t.readPath path = .error .absent) : Stated t (some path) []
  | object {path : Path} {ms : List (String × Value)}
      (tokens : tokensAt? t path = some (Value.object ms).tokens) : Stated t (some path) ms

/-- A configuration with the settings that come of options, members of a document, and defaults. -/
structure Settles (o : ServerOptions) (ms : List (String × Value)) (c : Config) : Prop where
  dataDir : c.dataDir =
    (o.dataDir.or ((said .dataDir ms).text?.map Path.mk)).getD ⟨"./relaykv_data"⟩
  listenAddress : c.listenAddress =
    (o.listen.or (said .listenAddress ms).text?).getD "127.0.0.1:7878"
  maxConnections : c.maxConnections =
    (o.maxConnections.or (said .maxConnections ms).count?).getD 1024
  snapshotInterval : c.snapshotInterval =
    (o.snapshotInterval.or (said .snapshotInterval ms).count?).getD 10000
  snapshotsEnabled : c.snapshotsEnabled =
    if o.noSnapshots then false else (said .snapshotsEnabled ms).flag?.getD true
  logEnabled : c.logEnabled =
    if o.noAppendLog then false else (said .logEnabled ms).flag?.getD true
  rotationThreshold : c.rotationThreshold = (said .rotationThreshold ms).count?.getD 5
  connectAttempts : c.connectAttempts = (said .connectAttempts ms).count?.getD 5
  retryDelay : c.retryDelay = (said .retryDelay ms).count?.getD 1000

section
variable {o : ServerOptions} {t : FileTree} {ms : List (String × Value)}

theorem settles_override (o : ServerOptions) (ms : List (String × Value)) :
    Settles o ms (o.override ((Overlay.ofMembers ms).apply {})) where
  dataDir := Option.getD_or.symm
  listenAddress := Option.getD_or.symm
  maxConnections := Option.getD_or.symm
  snapshotInterval := Option.getD_or.symm
  snapshotsEnabled := by
    rw [ServerOptions.override]
    cases o.noSnapshots
    · exact Bool.and_true _
    · exact Bool.and_false _
  logEnabled := by
    rw [ServerOptions.override]
    cases o.noAppendLog
    · exact Bool.and_true _
    · exact Bool.and_false _
  rotationThreshold := rfl
  connectAttempts := rfl
  retryDelay := rfl

theorem config_of_some {path : Path} (asked : o.document = some path) :
    o.config t = (ofFile t path).map o.override := by
  rw [ServerOptions.config, asked]

theorem config_of_stated (stated : Stated t o.document ms) (proper : Proper ms) :
    o.config t = .ok (o.override ((Overlay.ofMembers ms).apply {})) := by
  generalize asked : o.document = document at stated
  cases stated with
  | unasked =>
    rw [ServerOptions.config, asked]
    rfl
  | missing absent =>
    rw [config_of_some asked, ofFile, absent]
    rfl
  | object tokens =>
    rw [config_of_some asked, ofFile_of_read tokens (Overlay.read_object proper)]
    rfl

theorem config_of_improper {path : Path} {ts : List Token} (asked : o.document = some path)
    (tokens : tokensAt? t path = some (.beginObject :: memberTokens ms ++ ts))
    (improper : ¬ Proper ms) : ∃ p : Problem, o.config t =
      .error (.configuration ("invalid config file " ++ path.text ++ ": " ++ p.message)) := by
  obtain ⟨p, refused⟩ := Overlay.read_improper improper ts
  refine ⟨p, ?_⟩
  rw [config_of_some asked, ofFile_of_refused tokens refused]
  rfl

theorem Settles.eq {c d : Config} (h : Settles o ms c) (h' : Settles o ms d) : c = d := by
  cases c
  cases d
  congr
  · exact h.dataDir.trans h'.dataDir.symm
  · exact h.logEnabled.trans h'.logEnabled.symm
  · exact h.rotationThreshold.trans h'.rotationThreshold.symm
  · exact h.snapshotsEnabled.trans h'.snapshotsEnabled.symm
  · exact h.snapshotInterval.trans h'.snapshotInterval.symm
  · exact h.listenAddress.trans h'.listenAddress.symm
  · exact h.maxConnections.trans h'.maxConnections.symm
  · exact h.connectAttempts.trans h'.connectAttempts.symm
  · exact h.retryDelay.trans h'.retryDelay.symm

/-- Options come before the members of the document, and these before the defaults. A document with
a member that is unknown, occurs twice or has a value that it may not have is refused for any
options, however the document goes on. -/
theorem config_follows_precedence (o : ServerOptions) (t : FileTree) :
    (∀ ms, Stated t o.document ms → Proper ms → ∃ c, o.config t = .ok c ∧ Settles o ms c) ∧
      ∀ path ms ts, o.document = some path →
        tokensAt? t path = some (.beginObject :: memberTokens ms ++ ts) → ¬ Proper ms →
          ∃ p : Problem, o.config t =
            .error (.configuration ("invalid config file " ++ path.text ++ ": " ++ p.message)) := by
  constructor
  · intro ms stated proper
    exact ⟨_, config_of_stated stated proper, settles_override o ms⟩
  · intro path ms ts asked tokens improper
    exact config_of_improper asked tokens improper

/-- A document with its members in an order of their own, one of them `null`, and with a switch on
that an argument turns off; no document; and one with a number that is out of range. -/
theorem config_of_three_documents :
    let o (path : Path) : ServerOptions :=
      { document := some path, maxConnections := some 9, noSnapshots := true }
    let t := (FileTree.empty.insert ["a"] (.file 0 (Utf8.encode
      "\x7b\"connect_attempts\":0,\"snapshot_enabled\":true,\"listen_addr\":null\x7d"))).insert
        ["b"] (.file 0 (Utf8.encode "\x7b\"connect_attempts\":4294967296\x7d"))
    let c : Config := { maxConnections := 9, snapshotsEnabled := false }
    (o ⟨"/a"⟩).config t = .ok { c with connectAttempts := 0 } ∧ (o ⟨"/c"⟩).config t = .ok c ∧
      ∃ p : Problem, (o ⟨"/b"⟩).config t =
        .error (.configuration ("invalid config file /b: " ++ p.message)) := by
  intro o t c
  let ms : List (String × Value) := [("connect_attempts", .integer 0),
    ("snapshot_enabled", .bool true), ("listen_addr", .null)]
  have follows : Follows [] ms :=
    ⟨.connectAttempts, rfl, by decide, .inr ⟨by decide, by decide⟩,
      .snapshotsEnabled, rfl, by decide, .inr trivial, .listenAddress, rfl, by decide, .inl rfl,
      trivial⟩
  have proper : Proper ms := (follows_iff.1 follows).1
  refine ⟨?there, ?missing, ?refused⟩
  case there =>
    have stated : Stated t (o ⟨"/a"⟩).document ms := .object (by decide +kernel)
    obtain ⟨_, read, settles⟩ := (config_follows_precedence _ t).1 ms stated proper
    refine read.trans (congrArg Except.ok (settles.eq ?_))
    exact ⟨rfl, rfl, rfl, rfl, rfl, rfl, rfl, rfl, rfl⟩
  case missing =>
    have stated : Stated t (o ⟨"/c"⟩).document [] := .missing (by decide +kernel)
    obtain ⟨_, read, settles⟩ := (config_follows_precedence _ t).1 [] stated ⟨nofun, List.nodup_nil⟩
    refine read.trans (congrArg Except.ok (settles.eq ?_))
    exact ⟨rfl, rfl, rfl, rfl, rfl, rfl, rfl, rfl, rfl⟩
  case refused =>
    refine (config_follows_precedence _ t).2 ⟨"/b"⟩
      [("connect_attempts", .integer 4294967296)] [.endObject] rfl (by decide +kernel) ?_
    intro proper
    obtain ⟨f, name, takes⟩ := proper.known _ (List.mem_singleton_self _)
    obtain rfl : f = .connectAttempts := Field.name_injective name
    rcases takes with null | ⟨-, inRange⟩
    · cases null
    · exact absurd inRange (by decide)

end
end Config
end Keyline
