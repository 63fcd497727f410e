import Synopsis.Record.Layout

/-!
# Sample records

Record types that cover every way of reading a field and most scalar types.
-/

namespace Synopsis.Sample

open Record

/-- A field that takes the presence of an option. -/
def switch (field lookup : String) : Slot Scalar :=
  ⟨⟨field, lookup, .switch⟩, ScalarType.boolean.reader⟩

/-- A field that takes a value if there is one. -/
def optional (field lookup : String) (type : ScalarType) : Slot Scalar :=
  ⟨⟨field, lookup, .optional⟩, type.reader⟩

/-- A field that takes all values. -/
def collection (field lookup : String) (type : ScalarType) : Slot Scalar :=
  ⟨⟨field, lookup, .collection⟩, type.reader⟩

/-- A field that takes a value that must be there. -/
def scalar (field lookup : String) (type : ScalarType) : Slot Scalar :=
  ⟨⟨field, lookup, .scalar⟩, type.reader⟩

/-- Unsigned integers of 8 bits. -/
def unsigned8 : ScalarType := .integer ⟨false, .bits8⟩

/-- Unsigned integers of 16 bits. -/
def unsigned16 : ScalarType := .integer ⟨false, .bits16⟩

/-- Unsigned integers of 32 bits. -/
def unsigned32 : ScalarType := .integer ⟨false, .bits32⟩

/-- Signed integers of 32 bits. -/
def signed32 : ScalarType := .integer ⟨true, .bits32⟩

/-- Signed integers of 64 bits. -/
def signed64 : ScalarType := .integer ⟨true, .bits64⟩

/-- How to connect to a host. -/
def connect : Layout :=
  { name := "Connect"
    slots :=
      [switch "secure" "secure",
        switch "verbose" "verbose",
        scalar "retries" "retries" unsigned32,
        optional "timeout_seconds" "timeout" .double,
        optional "mode" "mode" .string,
        scalar "host" "host" .string,
        scalar "port" "port" unsigned16] }

/-- What to back up. -/
def backup : Layout :=
  { name := "Backup"
    slots :=
      [optional "r#type" "type" .string,
        optional "since" "since" .date,
        scalar "dest" "dest" .string,
        collection "sources" "sources" .string] }

/-- A field of every kind. -/
def everything : Layout :=
  { name := "Everything"
    slots :=
      [switch "flag" "flag",
        switch "dry" "dry_run",
        scalar "count" "count" signed64,
        optional "small" "small" unsigned8,
        optional "at" "at" .time,
        optional "on" "on" .date,
        optional "letter" "letter" .character,
        optional "yes" "yes" .boolean,
        collection "numbers" "numbers" signed32] }

/-- No field at all. -/
def nothing : Layout := { name := "Empty", slots := [] }

/-- How to connect to a host, as the sample program takes it. -/
def connection : Layout :=
  { name := "Connect"
    slots :=
      [switch "secure" "secure",
        scalar "retries" "retries" unsigned32,
        optional "timeout_seconds" "timeout" .double,
        optional "mode" "mode" .string,
        scalar "host" "host" .string,
        scalar "port" "port" unsigned16] }

/-- What to back up, as the sample program takes it. -/
def backupJob : Layout :=
  { name := "Backup"
    slots :=
      [switch "verbose" "verbose",
        optional "since" "since" .date,
        scalar "destination" "dest" .string,
        collection "sources" "sources" .string] }

end Synopsis.Sample
