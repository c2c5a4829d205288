import ChatRelay.Http.Relay
import ChatRelay.Proofs.Json.Values
import ChatRelay.Proofs.Session.Uninterrupted
import ChatRelay.Proofs.Text.Decoding

/-!
# Events on the wire

An event is one line: the only line feed in it is the one that ends it, because a line feed in a
text is escaped (`newline_not_mem_write`). And an event is read back from its line, whatever its text
(`parse?_write`). So a body that is made of such lines is split and read as the events it was made
of, no two lists of events have one body, and a client has the events of its run
(`body_uniquely_decodable`).
-/

namespace ChatRelay

namespace StreamEvent

open Json Json.Tree

/-! ### One event -/

theorem newline_not_mem_write (e : StreamEvent) : '\n' ∉ e.write := by
  apply newline_not_mem_recordText
  simp only [List.forall_mem_cons, List.not_mem_nil, false_imp_iff, implies_true, and_true]
  exact ⟨newline_not_mem_stringText _, newline_not_mem_boolText _, newline_not_mem_boolText _,
    newline_not_mem_boolText _⟩

/-- An event is stated by its record. -/
theorem states_write (e : StreamEvent) : States read? 1 e.write e := by
  obtain ⟨text, htext, hread⟩ := states_string e.text
  have hspells : Spells e.write (.obj ([("text", text), ("is_special", .bool e.special),
      ("is_tool", .bool e.tool), ("is_error", .bool e.error)].map keyed)) :=
    spells_record (.cons ⟨rfl, htext⟩ (.cons ⟨rfl, spells_bool _⟩ (.cons ⟨rfl, spells_bool _⟩
      (.cons ⟨rfl, spells_bool _⟩ .nil))))
  refine ⟨_, hspells, fun depth hd => ?_⟩
  rw [read?, record?_record (by simp) (by simp) _ hd]
  have hspecial : List.lookup "is_special" [("text", text), ("is_special", .bool e.special),
      ("is_tool", .bool e.tool), ("is_error", .bool e.error)] = some (.bool e.special) := rfl
  have htool : List.lookup "is_tool" [("text", text), ("is_special", .bool e.special),
      ("is_tool", .bool e.tool), ("is_error", .bool e.error)] = some (.bool e.tool) := rfl
  have herror : List.lookup "is_error" [("text", text), ("is_special", .bool e.special),
      ("is_tool", .bool e.tool), ("is_error", .bool e.error)] = some (.bool e.error) := rfl
  simp [required, hspecial, htool, herror, hread (depth - 1) (by omega), bool?]

/-- An event is read back from its text. -/
theorem parse?_write (e : StreamEvent) : parse? e.write = some e :=
  (states_write e).ofChars? (by decide)

theorem toList_line (e : StreamEvent) : e.line.toList = e.write ++ ['\n'] := String.toList_ofList

theorem count_newline_line (e : StreamEvent) : e.line.toList.count '\n' = 1 := by
  rw [toList_line, List.count_append, List.count_eq_zero.2 (newline_not_mem_write e)]
  rfl

/-- There is no carriage return before the end of the line. -/
theorem withoutReturn_write (e : StreamEvent) : Text.withoutReturn e.write = e.write := by
  apply Text.withoutReturn_of_ne
  rw [write, recordText, objectText, List.getLast?_concat]
  decide

/-! ### Many events -/

/-- The body that carries events: their lines. -/
def body (es : List StreamEvent) : String :=
  String.join (es.map line)

theorem toList_body_cons (e : StreamEvent) (es : List StreamEvent) :
    (body (e :: es)).toList = e.write ++ '\n' :: (body es).toList := by
  simp only [body, List.map_cons, String.toList_join, List.flatMap_cons, toList_line,
    List.append_assoc, List.singleton_append]

theorem lines_body (es : List StreamEvent) : Text.lines (body es).toList = es.map write := by
  induction es with
  | nil => rfl
  | cons e es ih =>
    rw [toList_body_cons, Text.lines_cons (newline_not_mem_write e), withoutReturn_write, ih,
      List.map_cons]

/-- The events in the bytes of a body: its lines, each read for itself. -/
def readBody? (bytes : List UInt8) : Option (List StreamEvent) := do
  let cs ← Utf8.decodeChars? bytes
  (Text.lines cs).mapM parse?

theorem readBody?_body (es : List StreamEvent) : readBody? (Utf8.encode (body es)) = some es := by
  have hread : (es.map write).mapM parse? = some es := by
    induction es with
    | nil => rfl
    | cons e es ih => simp [List.mapM_cons, parse?_write, ih]
  rw [readBody?, Utf8.encode, Utf8.decodeChars?_encodeChars]
  show (Text.lines (body es).toList).mapM parse? = some es
  rw [lines_body, hread]

end StreamEvent

/-! ### What a client receives -/

namespace Http.Relay

open StreamEvent

/-- A request that is let through is answered with the events of its run. -/
theorem body_handle {r : Relay} {request : Request} {generate : GenerateRequest}
    (hroute : r.route request = .generate generate) (hopen : r.queueOpen = true) :
    (r.handle request).response.body = body (r.registry.run generate .none).received := by
  rw [handle, hroute]
  simp only [hopen, if_true]
  rfl

/-- Every event is one line, whose line feed is its last character and the only one; the lines of a
body, each read for itself, are the events that it carries; and the bytes of a body determine the
events. So a client that reads the answer to its request to the end has the events of the run. -/
theorem body_uniquely_decodable :
    (∀ e : StreamEvent, e.line.toList.getLast? = some '\n' ∧ e.line.toList.count '\n' = 1) ∧
      (∀ es : List StreamEvent, (Text.lines (body es).toList).map parse? = es.map some) ∧
      Function.Injective (fun es => Utf8.encode (body es)) ∧
      ∀ (r : Relay) (request : Request) (generate : GenerateRequest),
        r.route request = .generate generate → r.queueOpen = true →
          readBody? (Utf8.encode (r.handle request).response.body) =
            some (r.registry.run generate .none).received := by
  refine ⟨?_, ?_, ?_, ?_⟩
  · intro e
    refine ⟨?_, count_newline_line e⟩
    rw [toList_line, List.getLast?_concat]
  · intro es
    rw [lines_body, List.map_map]
    exact List.map_congr_left fun e _ => parse?_write e
  · intro es es' h
    have hread := readBody?_body es
    rw [show Utf8.encode (body es) = Utf8.encode (body es') from h, readBody?_body es'] at hread
    exact (Option.some.inj hread).symm
  · intro r request generate hroute hopen
    rw [body_handle hroute hopen]
    exact readBody?_body _

/-- A relay whose engine replies with a line feed, a quotation mark and a line separator. -/
def listening : Relay :=
  let v := Vocabulary.ofSpecials Grammar.qwen.controlTokens
  ⟨.new .qwen ⟨v.codec, .ofScript (v.encode "\n\"\u2028")⟩ 9, some ⟨"u", "p"⟩, true⟩

/-- A request for a reply, with the right credentials. -/
def posted : Request :=
  ⟨"POST", "/generate", [("authorization", ⟨Utf8.encodeChars (Credentials.header ⟨"u", "p"⟩)⟩)],
    Utf8.encodeChars Registry.greeting.write⟩

theorem body_uniquely_decodable_line_ends :
    listening.route posted = .generate Registry.greeting ∧ listening.queueOpen = true ∧
      readBody? (Utf8.encode (listening.handle posted).response.body) =
        some [.plain "\n", .plain "\"", .plain "\u2028"] := by
  have hroute : listening.route posted = .generate Registry.greeting := rfl
  have hevents : (listening.registry.run Registry.greeting .none).received =
      [.plain "\n", .plain "\"", .plain "\u2028"] := by decide +kernel
  refine ⟨hroute, rfl, ?_⟩
  rw [← hevents]
  exact body_uniquely_decodable.2.2.2 listening posted Registry.greeting hroute rfl

end Http.Relay

end ChatRelay
