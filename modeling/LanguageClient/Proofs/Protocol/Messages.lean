import LanguageClient.Proofs.Json.Printing
import LanguageClient.Proofs.Protocol.Normalizing
import LanguageClient.Protocol.Message

/-!
# Messages survive the wire

A message that was written is read as a message of the same kind with the same fields. Its members
are written in the order of their declaration and read as those of an object, which ascend. Its kind
is found again because every request and every response is written with an id, though that of a
response may be null, and every request and every notification with a method. The only thing that is
not told apart is an optional field that holds null: it comes back absent. The outcome of a response
does not change by that, since an absent result stands for null.
-/

namespace LanguageClient

open FieldReader

/-- An optional value, with null taken for absent. -/
def present (value : Option Json) : Option Json :=
  value.filter fun value => !value.isNull

/-- A value that is there is read as it was written, but null as absent. -/
theorem decode?_present (value : Json) :
    (decode? value : Option (Option Json)) = some (present (some value)) := by
  cases value <;> rfl

/-- An absent result and a null stand for the same. -/
theorem getD_present (value : Option Json) : (present value).getD .null = value.getD .null := by
  cases value with
  | none => rfl
  | some value => cases value <;> rfl

instance : LawfulWire UInt64 where
  decode?_encode value := by
    have hlt := value.toNat_lt
    have hwithin : (0 : Int) ≤ (value.toNat : Int) ∧
        (value.toNat : Int) ≤ 18446744073709551615 := by omega
    simp only [decode?, encode, Json.intWithin?, if_pos hwithin, Option.map_some, Int.toNat_natCast,
      UInt64.ofNat_toNat]

/-- A number is read as a number and a text as a text, also if its characters are digits. -/
instance : LawfulWire RequestId where
  decode?_encode id := by
    cases id with
    | number value =>
      have hread : (decode? (encode value) : Option UInt64) = some value := decode?_encode value
      change ((decode? (encode value) : Option UInt64).map RequestId.number <|> _) = _
      rw [hread]
      rfl
    | text value => rfl

/-- The id of a response may be null. -/
theorem decode?_encode_id (id : Option RequestId) :
    (decode? (encode id) : Option (Option RequestId)) = some id := by
  cases id with
  | none => rfl
  | some id =>
    have hread : (decode? (encode id) : Option RequestId) = some id := decode?_encode id
    cases id with
    | number value => exact congrArg (Option.map some) hread
    | text value => rfl

/-- The request as it is read after it was written. -/
def Request.received (request : Request) : Request :=
  { request with params := present request.params }

/-- The error as it is read after it was written. -/
def ResponseError.received (error : ResponseError) : ResponseError :=
  { error with data := present error.data }

/-- The response as it is read after it was written. -/
def Response.received (response : Response) : Response :=
  { response with
    result := present response.result
    error := response.error.map ResponseError.received }

/-- The notification as it is read after it was written. -/
def Notification.received (notification : Notification) : Notification :=
  { notification with params := present notification.params }

/-- The message as it is read after it was written. -/
def Message.received : Message → Message
  | .response answer => .response answer.received
  | .request question => .request question.received
  | .notification notice => .notification notice.received

/-- What a response says to the caller: a result, or the code and the wording of an error. -/
def Response.said (response : Response) : Except (Int32 × String) Json :=
  response.outcome.mapError fun error => (error.code, error.message)

section Fields

/-- A JSON value is written as it is. -/
theorem encode_json (value : Json) : encode value = value :=
  rfl

/-- A request is read as it was written, apart from null parameters. -/
theorem Request.decode?_encode (request : Request) :
    (decode? (encode request) : Option Request) = some request.received := by
  change Json.readRecord? _ (Json.record _) = _
  obtain ⟨version, id, method, params⟩ := request
  cases params with
  | none =>
    simp [-bind_pure_comp, Json.find?, lookup_insertField, fields, WrittenField.field,
      WrittenField.optionalField, received, present]
  | some params =>
    simp [-bind_pure_comp, Json.find?, lookup_insertField, fields, WrittenField.field,
      WrittenField.optionalField, received, encode_json, decode?_present]

theorem Notification.decode?_encode (notification : Notification) :
    (decode? (encode notification) : Option Notification) = some notification.received := by
  change Json.readRecord? _ (Json.record _) = _
  obtain ⟨version, method, params⟩ := notification
  cases params with
  | none =>
    simp [-bind_pure_comp, Json.find?, lookup_insertField, fields, WrittenField.field,
      WrittenField.optionalField, received, present]
  | some params =>
    simp [-bind_pure_comp, Json.find?, lookup_insertField, fields, WrittenField.field,
      WrittenField.optionalField, received, encode_json, decode?_present]

theorem ResponseError.decode?_encode (error : ResponseError) :
    (decode? (encode error) : Option ResponseError) = some error.received := by
  change Json.readRecord? _ (Json.record _) = _
  obtain ⟨code, message, data⟩ := error
  cases data with
  | none =>
    simp [-bind_pure_comp, Json.find?, lookup_insertField, fields, WrittenField.field,
      WrittenField.optionalField, received, present]
  | some data =>
    simp [-bind_pure_comp, Json.find?, lookup_insertField, fields, WrittenField.field,
      WrittenField.optionalField, received, encode_json, decode?_present]

/-- An error that is there is read as one that is there. -/
theorem ResponseError.decode?_encode_some (error : ResponseError) :
    (decode? (encode error) : Option (Option ResponseError)) = some (some error.received) :=
  congrArg (Option.map some) error.decode?_encode

theorem Response.decode?_encode (response : Response) :
    (decode? (encode response) : Option Response) = some response.received := by
  change Json.readRecord? _ (Json.record _) = _
  obtain ⟨version, id, result, error⟩ := response
  cases result with
  | none =>
    cases error with
    | none =>
      simp [-bind_pure_comp, Json.find?, lookup_insertField, fields, WrittenField.field,
        WrittenField.optionalField, received, present, decode?_encode_id]
    | some error =>
      simp [-bind_pure_comp, Json.find?, lookup_insertField, fields, WrittenField.field,
        WrittenField.optionalField, received, present, decode?_encode_id,
        ResponseError.decode?_encode_some]
  | some result =>
    cases error with
    | none =>
      simp [-bind_pure_comp, Json.find?, lookup_insertField, fields, WrittenField.field,
        WrittenField.optionalField, received, encode_json, decode?_present, decode?_encode_id]
    | some error =>
      simp [-bind_pure_comp, Json.find?, lookup_insertField, fields, WrittenField.field,
        WrittenField.optionalField, received, encode_json, decode?_present, decode?_encode_id,
        ResponseError.decode?_encode_some]

end Fields

/-- What a response says does not depend on whether null stands for absent. -/
theorem Response.said_received (response : Response) : response.received.said = response.said := by
  obtain ⟨version, id, result, error⟩ := response
  cases error with
  | none => exact congrArg Except.ok (getD_present result)
  | some error => rfl

section Kinds

variable {written : List WrittenField} {name : String}

/-- A record that was written has the members that were written. -/
theorem get?_record {value : Option Json} (hnames : (written.map WrittenField.name).Nodup)
    (hfield : ⟨name, value⟩ ∈ written) : (Json.record written).get? name = value := by
  obtain ⟨fields, hrecord, hholds, -⟩ := exists_record hnames
  rw [hrecord]
  exact hholds _ hfield

/-- A record that was written has no other members. -/
theorem get?_record_eq_none (hnames : (written.map WrittenField.name).Nodup)
    (hname : name ∉ written.map WrittenField.name) : (Json.record written).get? name = none := by
  obtain ⟨fields, hrecord, -, hnone⟩ := exists_record hnames
  rw [hrecord]
  exact hnone name hname

/-- A request has an id and a method. -/
theorem Request.get?_encode (request : Request) :
    (encode request).get? "id" = some (encode request.id) ∧
      (encode request).get? "method" = some (encode request.method) := by
  constructor <;> apply get?_record <;>
    simp [fields, WrittenField.field, WrittenField.optionalField]

/-- A response has an id, be it null, and no method. -/
theorem Response.get?_encode (response : Response) :
    (encode response).get? "id" = some (encode response.id) ∧
      (encode response).get? "method" = none := by
  constructor
  · apply get?_record <;> simp [fields, WrittenField.field, WrittenField.optionalField]
  · apply get?_record_eq_none <;> simp [fields, WrittenField.field, WrittenField.optionalField]

/-- A notification has a method and no id. -/
theorem Notification.get?_encode (notification : Notification) :
    (encode notification).get? "id" = none ∧
      (encode notification).get? "method" = some (encode notification.method) := by
  constructor
  · apply get?_record_eq_none <;> simp [fields, WrittenField.field, WrittenField.optionalField]
  · apply get?_record <;> simp [fields, WrittenField.field, WrittenField.optionalField]

end Kinds

section Declared

variable {written : List WrittenField} {depth : Nat}

/-- Every member that is written is a member of the object. -/
theorem mem_of_mem_members (hnames : (written.map WrittenField.name).Nodup)
    {fields : List (String × Json)} (hrecord : Json.record written = .obj fields)
    {member : String × Json} (hmember : member ∈ Json.members written) : member ∈ fields := by
  obtain ⟨fields', hrecord', hholds, -⟩ := exists_record hnames
  obtain rfl : fields' = fields := Json.obj.inj (hrecord'.symm.trans hrecord)
  obtain ⟨field, hfield, hmember⟩ := List.mem_filterMap.mp hmember
  obtain ⟨value, hvalue, rfl⟩ := Option.map_eq_some_iff.mp hmember
  exact mem_of_lookup ((hholds field hfield).trans hvalue)

/-- The numbers of a member are integers if those of the object are, and it is less nested. -/
theorem isIntegral_of_mem_members (hnames : (written.map WrittenField.name).Nodup)
    (hintegral : (Json.record written).isIntegral = true) {member : String × Json}
    (hmember : member ∈ Json.members written) :
    member.2.isIntegral = true ∧ member.2.depth < (Json.record written).depth := by
  obtain ⟨fields, hrecord, -⟩ := exists_record hnames
  have hmem := mem_of_mem_members hnames hrecord hmember
  rw [hrecord, Json.isIntegral, Bool.and_eq_true] at hintegral
  rw [hrecord, Json.depth]
  exact ⟨Json.isIntegral_of_mem_fields hintegral.2 member hmem,
    Nat.lt_succ_of_le (Json.depth_le_fieldsDepth hmem)⟩

/-- A record whose members stand in the order of the fields is read as the object. -/
theorem readsAs_declared (hnames : (written.map WrittenField.name).Nodup)
    (hintegral : (Json.record written).isIntegral = true)
    (hdepth : (Json.record written).depth ≤ depth) :
    Json.ReadsAs (Json.readValue depth) (.declared written) (.record written) := by
  cases depth with
  | zero => exact absurd hdepth (Nat.not_succ_le_zero _)
  | succ depth =>
    refine Json.readsAs_obj (List.forall₂_same.mpr fun member hmember => ⟨rfl, ?_⟩)
    obtain ⟨hmember, hless⟩ := isIntegral_of_mem_members hnames hintegral hmember
    exact Json.reads_readValue hmember (by omega)

/-- The error is the last member of a response. -/
theorem Response.members_fields (response : Response) (error : Json) :
    Json.members (response.fields (some error)) =
      Json.members (response.fields none) ++ [("error", error)] := by
  obtain ⟨version, id, result, -⟩ := response
  cases result <;> rfl

/-- So is a response, also if the members of its error stand in their order. -/
theorem Response.readsAs_declared (response : Response) {error : Option ResponseError}
    (hintegral : (Json.record (response.fields (error.map encode))).isIntegral = true)
    (hdepth : (Json.record (response.fields (error.map encode))).depth ≤ depth) :
    Json.ReadsAs (Json.readValue depth)
      (.declared (response.fields (error.map fun error => .declared error.fields)))
      (.record (response.fields (error.map encode))) := by
  have hnames (error : Option Json) : ((response.fields error).map WrittenField.name).Nodup := by
    simp [fields, WrittenField.field, WrittenField.optionalField]
  cases error with
  | none => exact LanguageClient.readsAs_declared (hnames none) hintegral hdepth
  | some error =>
    simp only [Option.map_some] at hintegral hdepth ⊢
    cases depth with
    | zero => exact absurd hdepth (Nat.not_succ_le_zero _)
    | succ depth =>
      have hmembers (member : String × Json)
          (hmember : member ∈ Json.members (response.fields (some (encode error)))) :=
        isIntegral_of_mem_members (hnames _) hintegral hmember
      rw [response.members_fields] at hmembers
      have hfront : ∀ member ∈ Json.members (response.fields none),
          Json.ReadsMember (Json.readValue depth) member member := by
        intro member hmember
        obtain ⟨hvalue, hless⟩ := hmembers member (List.mem_append_left _ hmember)
        exact ⟨rfl, Json.reads_readValue hvalue (by omega)⟩
      have herror : Json.ReadsMember (Json.readValue depth) ("error", .declared error.fields)
          ("error", encode error) := by
        obtain ⟨hvalue, hless⟩ :=
          hmembers _ (List.mem_append_right _ (List.mem_singleton_self _))
        refine ⟨rfl, LanguageClient.readsAs_declared ?_ hvalue (Nat.le_of_lt_succ ?_)⟩
        · simp [ResponseError.fields, WrittenField.field, WrittenField.optionalField]
        · exact Nat.lt_of_lt_of_le hless hdepth
      refine Json.readsAs_obj ?_
      rw [response.members_fields, response.members_fields]
      exact List.rel_append (List.forall₂_same.mpr hfront) (.cons herror .nil)

/-- The text of a message is read as the message. -/
theorem Message.readsAs_written (message : Message)
    (hintegral : message.toJson.isIntegral = true) (hdepth : message.toJson.depth ≤ depth) :
    Json.ReadsAs (Json.readValue depth) message.written message.toJson := by
  cases message with
  | response answer => exact answer.readsAs_declared hintegral hdepth
  | request question =>
    refine readsAs_declared ?_ hintegral hdepth
    simp [Request.fields, WrittenField.field, WrittenField.optionalField]
  | notification notice =>
    refine readsAs_declared ?_ hintegral hdepth
    simp [Notification.fields, WrittenField.field, WrittenField.optionalField]

end Declared

namespace Message

/-- The kind of a message is found again, and then its fields are. -/
theorem ofJson_toJson (message : Message) : ofJson message.toJson = .ok message.received := by
  cases message with
  | request question =>
    obtain ⟨hid, hmethod⟩ := question.get?_encode
    simp only [ofJson, toJson, hid, hmethod, Option.isSome_some, question.decode?_encode, received]
  | response answer =>
    obtain ⟨hid, hmethod⟩ := answer.get?_encode
    simp only [ofJson, toJson, hid, hmethod, Option.isSome_some, Option.isSome_none,
      answer.decode?_encode, received]
  | notification notice =>
    obtain ⟨hid, hmethod⟩ := notice.get?_encode
    simp only [ofJson, toJson, hid, hmethod, Option.isSome_some, Option.isSome_none,
      notice.decode?_encode, received]

/-- A message whose numbers are integers and which is not nested too deeply is read as it was
written: it is of the same kind and has the same fields, apart from null ones, which come back
absent. So a response that was read says the same as the one that was written. -/
theorem parse_print (message : Message) (hintegral : message.toJson.isIntegral = true)
    (hdepth : message.toJson.depth ≤ Json.maxDepth) :
    parse message.print = .ok message.received ∧
      ∀ answer, message = .response answer →
        message.received = .response answer.received ∧ answer.received.said = answer.said := by
  have hread : Json.parse? message.print = some message.toJson :=
    Json.parseWithin?_of_readsAs (message.readsAs_written hintegral hdepth)
  constructor
  · rw [parse, hread]
    exact message.ofJson_toJson
  · rintro answer rfl
    exact ⟨rfl, answer.said_received⟩

/-- The members of a message stand in the order of their declaration. -/
example : (Message.request ⟨protocolVersion, .number 1, "shutdown", none⟩).print =
    "\x7b\"jsonrpc\":\"2.0\",\"id\":1,\"method\":\"shutdown\"\x7d" := by
  decide +kernel

/-- A response without a request, whose error carries a null. -/
def sample : Response :=
  ⟨protocolVersion, none, none,
    some ⟨ResponseError.methodNotFound, "no \"such\" method", some .null⟩⟩

theorem parse_print_sample :
    (Message.response sample).toJson.isIntegral = true ∧
      (Message.response sample).toJson.depth = 2 ∧
      parse (Message.response sample).print = .ok (.response { sample with
        error := some (.plain ResponseError.methodNotFound "no \"such\" method") }) := by
  have hintegral : (Message.response sample).toJson.isIntegral = true := by decide +kernel
  have hdepth : (Message.response sample).toJson.depth = 2 := by decide +kernel
  have hbound : (Message.response sample).toJson.depth ≤ Json.maxDepth := by
    rw [hdepth]
    decide
  exact ⟨hintegral, hdepth, (parse_print (.response sample) hintegral hbound).1⟩

end Message

end LanguageClient
