import MetricRelay.Proofs.Config.Accepted
import MetricRelay.Proofs.Config.Writing

/-!
# Strict reading of configurations

Every accepted configuration is read back from every block text that states it, and no block
text with an unknown or a repeated name states anything.

Main definitions:

- `Config.Server.parts`, `Config.Agent.parts`: what the configurations state.
- `Config.ReadsStrictly`: how a configuration of some type is read.

Main result:

- `Config.reads_strictly`.
-/

namespace MetricRelay.Config

open Yaml (Document Read)

/-! ## Parts of the two configurations -/

/-- The part with the key, which both configurations have. -/
def signingPart (key : Option String) : Part :=
  ⟨"signing", [⟨"key", .ofText key, .ofText none⟩]⟩

theorem names_signingPart (key : Option String) : (signingPart key).names = ["key"] := rfl

theorem nodup_signingPart (key : Option String) : (signingPart key).names.Nodup :=
  List.nodup_singleton _

namespace Server

/-- The part with the address to listen on and the subnet. -/
def servingPart (c : Server) : Part :=
  ⟨"server",
    [⟨"listen", .text c.listen, .text default.listen⟩,
      ⟨"trusted_subnet", .ofText c.trustedSubnet, .ofText default.trustedSubnet⟩]⟩

/-- The part that says where metrics are kept. -/
def storagePart (c : Server) : Part :=
  ⟨"storage",
    [⟨"store_interval_secs", .number c.storeInterval, .number default.storeInterval⟩,
      ⟨"file_storage_path", .ofText c.filePath, .ofText default.filePath⟩,
      ⟨"database_dsn", .ofText c.databaseName, .ofText default.databaseName⟩,
      ⟨"restore", .flag c.restore, .flag default.restore⟩]⟩

/-- What a configuration of the server states apart from its version. -/
def parts (c : Server) : List Part := [c.servingPart, c.storagePart, signingPart c.key]

theorem names_parts (c : Server) : c.parts.map (·.name) = ["server", "storage", "signing"] := rfl

/-- No part of a server has the name of another one, nor that of the version. -/
theorem nodup_parts (c : Server) : ("version" :: c.parts.map (·.name)).Nodup := by
  rw [names_parts]
  decide

theorem names_servingPart (c : Server) : c.servingPart.names = ["listen", "trusted_subnet"] := rfl

/-- No key of this part is another one. -/
theorem nodup_servingPart (c : Server) : c.servingPart.names.Nodup := by
  rw [names_servingPart]
  decide

theorem names_storagePart (c : Server) : c.storagePart.names =
    ["store_interval_secs", "file_storage_path", "database_dsn", "restore"] := rfl

/-- No two fields of the part about storage have one name. -/
theorem nodup_storagePart (c : Server) : c.storagePart.names.Nodup := by
  rw [names_storagePart]
  decide

end Server

namespace Agent

/-- The part that says where metrics are sent, and how often. -/
def sendingPart (c : Agent) : Part :=
  ⟨"agent",
    [⟨"server_url", .text c.serverAddress, .text default.serverAddress⟩,
      ⟨"poll_interval_secs", .number c.pollInterval, .number default.pollInterval⟩,
      ⟨"report_interval_secs", .number c.reportInterval, .number default.reportInterval⟩,
      ⟨"batch_size", .number c.batchSize, .number default.batchSize⟩,
      ⟨"push_timeout_ms", .number c.pushTimeout, .number default.pushTimeout⟩,
      ⟨"real_ip", .ofText c.realIp, .ofText default.realIp⟩]⟩

/-- What a configuration of the agent states apart from its version. -/
def parts (c : Agent) : List Part := [c.sendingPart, signingPart c.key]

theorem names_parts (c : Agent) : c.parts.map (·.name) = ["agent", "signing"] := rfl

/-- No part of an agent has the name of another one, nor that of the version. -/
theorem nodup_parts (c : Agent) : ("version" :: c.parts.map (·.name)).Nodup := by
  rw [names_parts]
  decide

theorem names_sendingPart (c : Agent) : c.sendingPart.names =
    ["server_url", "poll_interval_secs", "report_interval_secs", "batch_size", "push_timeout_ms",
      "real_ip"] := rfl

/-- No key of this part is another one. -/
theorem nodup_sendingPart (c : Agent) : c.sendingPart.names.Nodup := by
  rw [names_sendingPart]
  decide

end Agent

/-! ## Reading what is written -/

section

variable {b : Yaml.Block} {version : Nat} {parts : List Part}

theorem bind_of_eq_ok {α β : Type} {first : Read α} {a : α} (h : first = .ok a)
    (later : α → Read β) : first >>= later = later a := by
  rw [h]
  rfl

/-- The key is read from its part. -/
theorem readKey_eq (h : Writes b version parts) (hparts : ("version" :: parts.map (·.name)).Nodup)
    {key : Option String} (hp : signingPart key ∈ parts) (d : Document) :
    readKey d ⟨b.items.map Yaml.Block.Item.entry⟩ = .ok key := by
  rcases fieldsOf_part h hparts hp d with ⟨lines, hstates, hfields⟩
  have hkey := orElse_optionalText (d := d) hstates (nodup_signingPart key) (.head _)
  rw [readKey]
  exact (bind_of_eq_ok hfields _).trans hkey

/-- A configuration of the server is read from every text that states it. -/
theorem Server.ofDocument_eq {c : Server} (hc : c.IsAccepted) {b : Yaml.Block}
    (h : Writes b c.version c.parts) (d : Document) (hroot : d.root = b.root) :
    Server.ofDocument d = .ok c := by
  have hparts := c.nodup_parts
  have htop := fields_root h d
  have hversion := readVersion_eq h (by rw [hc.version]; decide) d
  have hkey := readKey_eq h hparts (.tail _ (.tail _ (.head _))) d
  rcases fieldsOf_part h hparts (.head _) d with ⟨serving, hserving, hservingFields⟩
  have hservingNames := c.nodup_servingPart
  have hlisten := orElse_text (d := d) hserving hservingNames (.head _)
  have hsubnet := orElse_optionalText (d := d) hserving hservingNames (.tail _ (.head _))
  rcases fieldsOf_part h hparts (.tail _ (.head _)) d with ⟨storage, hstorage, hstorageFields⟩
  have hstorageNames := c.nodup_storagePart
  have hlong : c.storeInterval ≤ greatestLong := Nat.le_trans hc.storeInterval (by decide)
  have hinterval := orElse_natural (d := d) hstorage hstorageNames hlong (.head _)
  have hfile := orElse_optionalText (d := d) hstorage hstorageNames (.tail _ (.head _))
  have hdatabase := orElse_optionalText (d := d) hstorage hstorageNames
    (.tail _ (.tail _ (.head _)))
  have hrestore := orElse_boolean (d := d) hstorage hstorageNames
    (.tail _ (.tail _ (.tail _ (.head _))))
  rw [ofDocument, hroot]
  refine (bind_of_eq_ok htop _).trans ?_
  refine (bind_of_eq_ok hservingFields _).trans ?_
  refine (bind_of_eq_ok hstorageFields _).trans ?_
  refine (bind_of_eq_ok hversion _).trans ?_
  refine (bind_of_eq_ok hlisten _).trans ?_
  refine (bind_of_eq_ok hsubnet _).trans ?_
  refine (bind_of_eq_ok hinterval _).trans ?_
  refine (bind_of_eq_ok hfile _).trans ?_
  refine (bind_of_eq_ok hdatabase _).trans ?_
  refine (bind_of_eq_ok hrestore _).trans ?_
  exact (bind_of_eq_ok hkey _).trans rfl

/-- A configuration of the agent is read from every text that states it. -/
theorem Agent.ofDocument_eq {c : Agent} (hc : c.IsAccepted) {b : Yaml.Block}
    (h : Writes b c.version c.parts) (d : Document) (hroot : d.root = b.root) :
    Agent.ofDocument d = .ok c := by
  have hparts := c.nodup_parts
  have htop := fields_root h d
  have hversion := readVersion_eq h (by rw [hc.version]; decide) d
  have hkey := readKey_eq h hparts (.tail _ (.head _)) d
  rcases fieldsOf_part h hparts (.head _) d with ⟨sending, hsending, hfields⟩
  have hnames := c.nodup_sendingPart
  have hpollLong : c.pollInterval ≤ greatestLong := Nat.le_trans hc.pollInterval.2 (by decide)
  have hreportLong : c.reportInterval ≤ greatestLong :=
    Nat.le_trans hc.reportInterval.2 (by decide)
  have hbatchLong : c.batchSize ≤ greatestLong := Nat.le_trans hc.batchSize.2 (by decide)
  have htimeoutLong : c.pushTimeout ≤ greatestLong := Nat.le_trans hc.pushTimeout.2 (by decide)
  have haddress := orElse_text (d := d) hsending hnames (.head _)
  have hpoll := orElse_natural (d := d) hsending hnames hpollLong (.tail _ (.head _))
  have hreport := orElse_natural (d := d) hsending hnames hreportLong
    (.tail _ (.tail _ (.head _)))
  have hbatch := orElse_natural (d := d) hsending hnames hbatchLong
    (.tail _ (.tail _ (.tail _ (.head _))))
  have htimeout := orElse_natural (d := d) hsending hnames htimeoutLong
    (.tail _ (.tail _ (.tail _ (.tail _ (.head _)))))
  have hrealIp := orElse_optionalText (d := d) hsending hnames
    (.tail _ (.tail _ (.tail _ (.tail _ (.tail _ (.head _))))))
  rw [ofDocument, hroot]
  refine (bind_of_eq_ok htop _).trans ?_
  refine (bind_of_eq_ok hfields _).trans ?_
  refine (bind_of_eq_ok hversion _).trans ?_
  refine (bind_of_eq_ok haddress _).trans ?_
  refine (bind_of_eq_ok hpoll _).trans ?_
  refine (bind_of_eq_ok hreport _).trans ?_
  refine (bind_of_eq_ok hbatch _).trans ?_
  refine (bind_of_eq_ok htimeout _).trans ?_
  refine (bind_of_eq_ok hrealIp _).trans ?_
  exact (bind_of_eq_ok hkey _).trans rfl

end

/-! ## Texts that state nothing -/

/-- Where a whole was read, its first part was. -/
theorem exists_of_bind_eq_ok {α β : Type} {first : Read α} {later : α → Read β} {r : β}
    (h : first >>= later = .ok r) : ∃ a, first = .ok a ∧ later a = .ok r := by
  cases first with
  | error fault => cases h
  | ok a => exact ⟨a, rfl, h⟩

/-- Where a key was read, the part about signing has no other names. -/
theorem exists_signing_of_readKey {d : Document} {top : Yaml.Fields} {key : Option String}
    (h : readKey d top = .ok key) : ∃ f, d.fieldsOf top "signing" ["key"] = .ok f := by
  rcases exists_of_bind_eq_ok h with ⟨f, hf, -⟩
  exact ⟨f, hf⟩

/-- Whatever is read as a configuration of the server has all its parts. -/
theorem Server.readsParts (c : Server) : ReadsParts Server.ofDocument c.parts := by
  intro d c' h
  rcases exists_of_bind_eq_ok h with ⟨top, htop, h⟩
  rcases exists_of_bind_eq_ok h with ⟨serving, hserving, h⟩
  rcases exists_of_bind_eq_ok h with ⟨storage, hstorage, h⟩
  -- The version and six fields are read before the key.
  rcases exists_of_bind_eq_ok h with ⟨_, -, h⟩
  rcases exists_of_bind_eq_ok h with ⟨_, -, h⟩
  rcases exists_of_bind_eq_ok h with ⟨_, -, h⟩
  rcases exists_of_bind_eq_ok h with ⟨_, -, h⟩
  rcases exists_of_bind_eq_ok h with ⟨_, -, h⟩
  rcases exists_of_bind_eq_ok h with ⟨_, -, h⟩
  rcases exists_of_bind_eq_ok h with ⟨_, -, h⟩
  rcases exists_of_bind_eq_ok h with ⟨_, hkey, -⟩
  rcases exists_signing_of_readKey hkey with ⟨signing, hsigning⟩
  refine ⟨top, htop, fun p hp => ?_⟩
  simp only [parts, List.mem_cons, List.not_mem_nil, or_false] at hp
  rcases hp with rfl | rfl | rfl
  · exact ⟨serving, hserving⟩
  · exact ⟨storage, hstorage⟩
  · exact ⟨signing, hsigning⟩

/-- Whatever is read as a configuration of the agent has all its parts. -/
theorem Agent.readsParts (c : Agent) : ReadsParts Agent.ofDocument c.parts := by
  intro d c' h
  rcases exists_of_bind_eq_ok h with ⟨top, htop, h⟩
  rcases exists_of_bind_eq_ok h with ⟨sending, hsending, h⟩
  -- The version and six fields are read before the key.
  rcases exists_of_bind_eq_ok h with ⟨_, -, h⟩
  rcases exists_of_bind_eq_ok h with ⟨_, -, h⟩
  rcases exists_of_bind_eq_ok h with ⟨_, -, h⟩
  rcases exists_of_bind_eq_ok h with ⟨_, -, h⟩
  rcases exists_of_bind_eq_ok h with ⟨_, -, h⟩
  rcases exists_of_bind_eq_ok h with ⟨_, -, h⟩
  rcases exists_of_bind_eq_ok h with ⟨_, -, h⟩
  rcases exists_of_bind_eq_ok h with ⟨_, hkey, -⟩
  rcases exists_signing_of_readKey hkey with ⟨signing, hsigning⟩
  refine ⟨top, htop, fun p hp => ?_⟩
  simp only [parts, List.mem_cons, List.not_mem_nil, or_false] at hp
  rcases hp with rfl | rfl
  · exact ⟨sending, hsending⟩
  · exact ⟨signing, hsigning⟩

/-! ## Strict reading -/

/-- How a configuration is read: one of printable texts can be written, each accepted one is
read back from every block text that states it, and no text with an unknown or a repeated
name, in the outermost record or in a part, states anything. -/
structure ReadsStrictly {α : Type} (parse : String → Outcome α) (accepted : α → Prop)
    (version : α → Nat) (parts : α → List Part) : Prop where
  writable : ∀ c, (∀ p ∈ parts c, ∀ f ∈ p.fields, f.content.IsPrintable) →
    ∃ b, Writes b (version c) (parts c)
  exact : ∀ c, accepted c → ∀ b, Writes b (version c) (parts c) → parse b.text = .ok c
  strict : ∀ c b, Oversteps b (parts c) → ∃ reason, parse b.text = .error (.badRequest reason)

/-- Every configuration of a server with texts that can be printed can be written down. -/
theorem Server.exists_writes (c : Server)
    (h : ∀ p ∈ c.parts, ∀ f ∈ p.fields, f.content.IsPrintable) :
    ∃ b, Writes b c.version c.parts := by
  have hnames : (c.parts.map (·.name)).all isName = true := by
    rw [names_parts]
    decide
  refine Config.exists_writes c.version c.nodup_parts hnames (fun p hp => ?_) h
  simp only [parts, List.mem_cons, List.not_mem_nil, or_false] at hp
  rcases hp with rfl | rfl | rfl
  · exact ⟨by rw [names_servingPart]; decide, c.nodup_servingPart⟩
  · exact ⟨by rw [names_storagePart]; decide, c.nodup_storagePart⟩
  · exact ⟨by rw [names_signingPart]; decide, nodup_signingPart c.key⟩

/-- Every configuration of an agent can be written. -/
theorem Agent.exists_writes (c : Agent)
    (h : ∀ p ∈ c.parts, ∀ f ∈ p.fields, f.content.IsPrintable) :
    ∃ b, Writes b c.version c.parts := by
  have hnames : (c.parts.map (·.name)).all isName = true := by
    rw [names_parts]
    decide
  refine Config.exists_writes c.version c.nodup_parts hnames (fun p hp => ?_) h
  simp only [parts, List.mem_cons, List.not_mem_nil, or_false] at hp
  rcases hp with rfl | rfl
  · exact ⟨by rw [names_sendingPart]; decide, c.nodup_sendingPart⟩
  · exact ⟨by rw [names_signingPart]; decide, nodup_signingPart c.key⟩

/-- What is read from a text and passes the checks is what the text states. -/
theorem read_eq_ok {α : Type} {ofDocument : Document → Read α} {check : α → Outcome Unit}
    {b : Yaml.Block} {c : α} (hread : ofDocument ⟨b.root, []⟩ = .ok c) (hcheck : check c = .ok ()) :
    read ofDocument check b.text = .ok c := by
  rw [read, b.parse_text]
  simp only [bind, Except.bind, hread, hcheck, pure, Except.pure]

/-- The configurations of the server and of the agent are read strictly. -/
theorem reads_strictly :
    ReadsStrictly Server.parse Server.IsAccepted Server.version Server.parts ∧
      ReadsStrictly Agent.parse Agent.IsAccepted Agent.version Agent.parts := by
  refine ⟨⟨Server.exists_writes, fun c hc b h => ?_, fun c b h => ?_⟩,
    Agent.exists_writes, fun c hc b h => ?_, fun c b h => ?_⟩
  · exact read_eq_ok (Server.ofDocument_eq hc h _ rfl) (Server.check_eq_ok_iff.2 hc)
  · exact exists_reason_of_oversteps (Server.readsParts c) h
  · exact read_eq_ok (Agent.ofDocument_eq hc h _ rfl) (Agent.check_eq_ok_iff.2 hc)
  · exact exists_reason_of_oversteps (Agent.readsParts c) h

/-- Marks of the syntax in a text, parts in another order, and one of them without fields. -/
example : (Server.parse ("signing:  # the key\n  \"key\": \"a: \\\"b\\\" #\\\\c\"\n\n" ++
    "storage:\nversion: 1\nserver:\n    listen: \"[::1]:80\"  # no more")).toOption =
      some { Server.default with listen := "[::1]:80", key := some "a: \"b\" #\\c" } := by
  decide +kernel

/-- A misspelt name in a part. -/
example : (Agent.parse "agent:\n  batch_sise: 5\nversion: 1\n").toOption = none := by
  decide +kernel

end MetricRelay.Config
