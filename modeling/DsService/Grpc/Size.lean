import DsService.Grpc.Codec
import DsService.Lib.Wire

/-!
# The sizes of messages

The fields of the messages that carry a payload, with the numbers of `cpp/grpc/ds-service.proto`:
the four requests that bring one in and the four responses that hand it back. `length` is the number
of bytes of a text. A response has only fields of the request behind it, under smaller numbers or
the same, so it is no larger.
-/

namespace DsService

namespace Proto

variable (length : String → Nat) {α : Type}

/-- A text or a byte string on the wire. -/
def text (s : String) : Wire.Value := .delimited (length s)

/-- A bool on the wire. -/
def bool (b : Bool) : Wire.Value := .varint b.toNat

def MapSetRequest.fields (m : MapSetRequest) : List Wire.Field :=
  Wire.singular 1 (m.key.map (text length)) ++ Wire.singular 2 (m.value.map (text length))

def MapGetResponse.fields (m : MapGetResponse) : List Wire.Field :=
  Wire.singular 1 (m.value.map (text length))

def TaskAddRequest.fields (m : TaskAddRequest α) : List Wire.Field :=
  Wire.singular 1 (m.taskId.map (text length)) ++
  Wire.repeated 2 (m.parentTaskIds.map (text length)) ++
  Wire.repeated 3 (m.queue.map (text length)) ++
  Wire.singular 4 (m.priority.map fun _ => .fixed64) ++
  Wire.singular 5 (m.function.map (text length)) ++
  Wire.singular 6 (m.input.map (text length))

def TaskGetResponse.fields (m : TaskGetResponse) : List Wire.Field :=
  Wire.singular 1 (m.taskId.map (text length)) ++
  Wire.singular 2 (m.function.map (text length)) ++
  Wire.singular 3 (m.input.map (text length))

def TaskDoneRequest.fields (m : TaskDoneRequest) : List Wire.Field :=
  Wire.singular 1 (m.taskId.map (text length)) ++
  Wire.singular 2 (m.output.map (text length)) ++
  Wire.singular 3 (m.workerId.map (text length)) ++
  Wire.singular 4 (m.failed.map bool)

def TaskGetOutputResponse.fields (m : TaskGetOutputResponse) : List Wire.Field :=
  Wire.singular 1 (m.output.map (text length))

def JournalAppendRequest.fields (m : JournalAppendRequest) : List Wire.Field :=
  Wire.singular 1 (m.key.map (text length)) ++ Wire.singular 2 (m.value.map (text length))

def JournalReadResponse.fields (m : JournalReadResponse) : List Wire.Field :=
  Wire.repeated 1 (m.entry.map (text length))

end Proto

/-! ## What comes in is no smaller than what goes out -/

section
variable {α : Type} [Zero α] (length : String → Nat)

/-- A value is no larger in a reply than in the set that stored it. -/
theorem size_mapGetResponse_le (key value : String) :
    Wire.size ((Codec.encode (MapGetResponse.mk value) Message.blank).fields length) ≤
      Wire.size ((Codec.encode (MapSetRequest.mk key value) Message.blank).fields length) := by
  refine Wire.size_le_of_within (.cons_right ?_)
  exact .cons ⟨(by decide : 1 ≤ 2), rfl⟩ .nil

/-- A task is no larger when it is handed out than in the add that brought it. -/
theorem size_taskGetResponse_le (request : TaskAddRequest α) :
    Wire.size ((Codec.encode (TaskGetResponse.mk request.taskId request.function request.input)
        Message.blank).fields length) ≤
      Wire.size ((Codec.encode request Message.blank).fields length) := by
  refine Wire.size_le_of_within ?_
  unfold Proto.TaskGetResponse.fields Proto.TaskAddRequest.fields
  simp only [List.append_assoc]
  refine Wire.within_singular le_rfl _ ?_
  -- the parents, the queues and the priority have no counterpart in the response
  refine Wire.within_append _ (Wire.within_append _ (Wire.within_append _ ?_))
  refine Wire.within_singular (by decide) _ ?_
  exact .cons ⟨(by decide : 3 ≤ 6), rfl⟩ .nil

/-- An output is no larger in a reply than in the report that brought it. -/
theorem size_taskGetOutputResponse_le (request : TaskDoneRequest) :
    Wire.size ((Codec.encode (TaskGetOutputResponse.mk request.output) Message.blank).fields
        length) ≤
      Wire.size ((Codec.encode request Message.blank).fields length) := by
  refine Wire.size_le_of_within (.cons_right ?_)
  exact .cons ⟨(by decide : 1 ≤ 2), rfl⟩ .nil

/-- An entry is no larger in a reply than in the append that stored it. -/
theorem size_journalReadResponse_le (key value : String) :
    Wire.size ((Codec.encode (JournalReadResponse.mk [value]) Message.blank).fields length) ≤
      Wire.size
        ((Codec.encode (JournalAppendRequest.mk key value) Message.blank).fields length) := by
  refine Wire.size_le_of_within (.cons_right ?_)
  exact .cons ⟨(by decide : 1 ≤ 2), rfl⟩ .nil

end

end DsService
