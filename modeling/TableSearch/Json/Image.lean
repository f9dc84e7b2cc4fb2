import TableSearch.Channel
import TableSearch.Image
import TableSearch.Json.Reader

/-!
# Images in JSON

A table is a list of values, a config a record of its two constants, and an image a record of a
config and a table. The table is checked as soon as its list has been read, and the image when its
record has been left. A channel is its name, or an object with its name as the key of `null`.
-/

namespace TableSearch.Json

/-- The reader of tables. -/
def table : Reader Table := (list word64).check Table.ofArray

/-- The record of the constants of a search. -/
def configRecord : Record UInt32 UInt32 := ⟨"SearchConfig", "right", "failed", word32, word32⟩

/-- The reader of configs. -/
def config : Reader Config := configRecord.reader.map fun (right, failed) => ⟨right, failed⟩

/-- The record of the parts of an image. -/
def imageRecord : Record Config Table := ⟨"RawImage", "config", "table", config, table⟩

/-- The reader of images. -/
def image : Reader Image := imageRecord.reader.check fun (config, table) => Image.build config table

/-- The channel of a name that ends before `rest`. -/
def channelNamed (name : String) (rest : List UInt8) : Except Fault (Channel × List UInt8) :=
  if name = Channel.privateInput.name then .ok (.privateInput, rest)
  else if name = Channel.publicInput.name then .ok (.publicInput, rest)
  else .error (.here (.unknownChannel name) rest)

/-- Reads the name of a channel behind its opening quote. -/
def channelName (input : List UInt8) : Except Fault (Channel × List UInt8) :=
  match text input with
  | .error fault => .error fault
  | .ok (name, rest) => channelNamed name rest

/-- Reads the key of an object that stands for a channel. -/
def channelKey (input : List UInt8) : Except Fault (Channel × List UInt8) :=
  match skipSpace input with
  | [] => .error (.ended .object)
  | b :: rest =>
    if b = ascii '"' then channelName rest
    else if b = ascii '\x7d' then .error (.malformed .expectedValue rest)
    else .error (.malformed .keyNotText rest)

/-- Takes the value `null`. -/
def null (input : List UInt8) : Except Fault (List UInt8) :=
  match skipSpace input with
  | [] => .error (.ended .value)
  | b :: rest =>
    if b = ascii 'n' then word (asciiBytes "ull") rest else .error (refuse "unit" (b :: rest))

/-- Ends an object that stands for a channel. -/
def closeChannel (input : List UInt8) : Except Fault (List UInt8) :=
  match skipSpace input with
  | [] => .error (.ended .object)
  | b :: rest =>
    if b = ascii '\x7d' then .ok rest else .error (.malformed .expectedValue (b :: rest))

/-- Takes the value of an object that stands for a channel, and its end. -/
def channelValue (input : List UInt8) : Except Fault (List UInt8) := do
  let rest ← colon input
  let rest ← null rest
  closeChannel rest

/-- Reads a channel in either form. -/
def readChannel (input : List UInt8) : Except Fault (Channel × List UInt8) :=
  match skipSpace input with
  | [] => .error (.ended .value)
  | b :: rest =>
    if b = ascii '"' then channelName rest
    else if b = ascii '\x7b' then
      match channelKey rest with
      | .error fault => .error fault
      | .ok (channel, rest) =>
        match channelValue rest with
        | .error fault => .error fault
        | .ok rest => .ok (channel, rest)
    else .error (.malformed .expectedValue rest)

theorem length_channelName_lt {input rest : List UInt8} {c : Channel}
    (read : channelName input = .ok (c, rest)) : rest.length < input.length := by
  unfold channelName channelNamed at read
  split at read
  · cases read
  · next name =>
    have shorter := length_text_lt name
    repeat' split at read
    all_goals cases read
    all_goals exact shorter

theorem length_channelKey_lt {input rest : List UInt8} {c : Channel}
    (read : channelKey input = .ok (c, rest)) : rest.length < input.length := by
  unfold channelKey at read
  split at read
  · cases read
  · next spaced =>
    have shorter := length_lt_of_skipSpace spaced
    repeat' split at read
    · have further := length_channelName_lt read
      omega
    · cases read
    · cases read

theorem length_null_lt {input rest : List UInt8} (read : null input = .ok rest) :
    rest.length < input.length := by
  unfold null at read
  split at read
  · cases read
  · next spaced =>
    have shorter := length_lt_of_skipSpace spaced
    split at read
    · have further := length_word_le read
      omega
    · cases read

theorem length_closeChannel_lt {input rest : List UInt8} (read : closeChannel input = .ok rest) :
    rest.length < input.length := by
  unfold closeChannel at read
  split at read
  · cases read
  · next spaced =>
    split at read
    · cases read
      exact length_lt_of_skipSpace spaced
    · cases read

theorem length_channelValue_lt {input rest : List UInt8} (read : channelValue input = .ok rest) :
    rest.length < input.length := by
  unfold channelValue at read
  cases afterColon : colon input with
  | error fault => rw [afterColon] at read; cases read
  | ok behind =>
    rw [afterColon] at read
    have shorter := length_colon_lt afterColon
    cases afterNull : null behind with
    | error fault =>
      simp only [bind, Except.bind, afterNull] at read
      cases read
    | ok further =>
      simp only [bind, Except.bind, afterNull] at read
      have kept := length_null_lt afterNull
      have last := length_closeChannel_lt read
      omega

/-- The reader of channels. -/
def channel : Reader Channel where
  read := readChannel
  shortens := by
    intro input c rest read
    unfold readChannel at read
    split at read
    · cases read
    · next spaced =>
      have shorter := length_lt_of_skipSpace spaced
      split at read
      · have further := length_channelName_lt read
        omega
      · split at read
        · split at read
          · cases read
          · next key =>
            have taken := length_channelKey_lt key
            split at read
            · cases read
            · next value =>
              cases read
              have further := length_channelValue_lt value
              omega
        · cases read

end TableSearch.Json
