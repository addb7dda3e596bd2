/-
**The identity of a display, written and read.** The base block says who made a display and when,
which unit it is, how large it is and how many extensions follow. Each of these fields has its own
span and its own encoding: words in either byte order, packed letters, numbers with and without a
sign, a single bit. A buffer in which one of them is overwritten reads as before with that one field
changed, and the slots, which lie apart from all of them, are as they were.

* `Setting.ofOctets_write`: the step, one field overwritten;
* `Setting.ofOctets_writeAll`: from it by induction, any number of fields one after the other;
* `Setting.slots_write`, `Setting.advertised_write`: what no field of the identity has a part in;
* `ManufacturerId.letters_pack`, `SerialCode.text_eq_shown`: how a written value is displayed;
* `identity_reads_back`: these together.
-/

import Edid.Proofs.BaseBlock

namespace Edid

/-! ### Values and their bytes -/

/-- The bytes of a word, high byte first. -/
def bigBytes (word : UInt16) : Bytes := [.ofNat (word.toNat / 256), .ofNat (word.toNat % 256)]

/-- The bytes of a word, low byte first. -/
def littleBytes (word : UInt16) : Bytes := [.ofNat (word.toNat % 256), .ofNat (word.toNat / 256)]

/-- The byte that stands for a number with a sign: negative ones are counted from 256 down. -/
def twosComplement (value : Int8) : UInt8 := .ofNat (value.toInt % 256).toNat

theorem ofNat_bytes (word : UInt16) :
    UInt16.ofNat (256 * (UInt8.ofNat (word.toNat / 256)).toNat +
      (UInt8.ofNat (word.toNat % 256)).toNat) = word := by
  have small := word.toNat_lt
  have joined : 256 * (UInt8.ofNat (word.toNat / 256)).toNat +
      (UInt8.ofNat (word.toNat % 256)).toNat = word.toNat := by
    rw [UInt8.toNat_ofNat', UInt8.toNat_ofNat']
    omega
  rw [joined, UInt16.ofNat_toNat]

theorem toInt8_twosComplement (value : Int8) :
    (UInt8.ofNat (twosComplement value).toNat).toInt8 = value := by
  have signed : value.toInt = (value.toBitVec.toNat : Int).bmod (256 : Nat) :=
    BitVec.toInt_eq_toNat_bmod _
  have small : value.toBitVec.toNat < 256 := value.toBitVec.isLt
  have residue : value.toInt % (256 : Nat) = value.toBitVec.toNat := by
    rw [signed, Int.bmod_emod]
    omega
  have counted : twosComplement value = .ofNat value.toBitVec.toNat :=
    congrArg (fun number : Int => UInt8.ofNat number.toNat) residue
  rw [UInt8.ofNat_toNat, counted]
  exact Int8.toBitVec_inj.mp (BitVec.ofNat_toNat _ _)

/-- The maker of three values of five bits each below a reserved bit. -/
def ManufacturerId.pack (reserved : Bool) (first second third : Fin 32) : ManufacturerId :=
  ⟨.ofNat (32768 * reserved.toNat + 1024 * first + 32 * second + third)⟩

/-! ### Fields that are set -/

/-- What the base block says about the display itself, field by field as it is read. -/
structure Identity where
  manufacturer : ManufacturerId
  product : ProductCode
  serial : SerialCode
  week : UInt8
  year : Int
  version : Int8
  revision : Int8
  digital : Bool
  width : Int8
  height : Int8
  extensionCount : UInt8

/-- A buffer of which every reader of the identity gives the field of a certain one. -/
structure Reads (bytes : Bytes) (identity : Identity) : Prop where
  manufacturer : BaseBlock.manufacturer bytes = .ok identity.manufacturer
  product : BaseBlock.product bytes = .ok identity.product
  serial : BaseBlock.serial bytes = .ok identity.serial
  week : BaseBlock.week bytes = .ok identity.week
  year : BaseBlock.year bytes = .ok identity.year
  version : BaseBlock.version bytes = .ok ⟨identity.version, identity.revision⟩
  digital : BaseBlock.isDigital bytes = .ok identity.digital
  size : BaseBlock.size bytes = .ok ⟨identity.width, identity.height⟩
  extensionCount : BaseBlock.extensionCount bytes = .ok identity.extensionCount

/-- One field of the identity, with a value for it. -/
inductive Setting where
  | manufacturer (reserved : Bool) (first second third : Fin 32)
  | product (code : UInt16)
  | serial (first second third fourth : UInt8)
  | week (value : UInt8)
  /-- The years since 1990. -/
  | year (since : UInt8)
  | version (value : Int8)
  | revision (value : Int8)
  /-- The whole byte on the video input, of which the topmost bit is read. -/
  | videoInput (byte : UInt8)
  | width (value : Int8)
  | height (value : Int8)
  | extensionCount (value : UInt8)

namespace Setting

/-- Where the field stands. -/
def offset : Setting → Nat
  | manufacturer .. => 0x08
  | product _ => 0x0A
  | serial .. => 0x0C
  | week _ => 0x10
  | year _ => 0x11
  | version _ => 0x12
  | revision _ => 0x13
  | videoInput _ => 0x14
  | width _ => 0x15
  | height _ => 0x16
  | extensionCount _ => 0x7E

/-- The bytes of the value. -/
def content : Setting → Bytes
  | manufacturer reserved first second third =>
      bigBytes (ManufacturerId.pack reserved first second third).raw
  | product code => littleBytes code
  | serial first second third fourth => [first, second, third, fourth]
  | week value => [value]
  | year since => [since]
  | version value => [twosComplement value]
  | revision value => [twosComplement value]
  | videoInput byte => [byte]
  | width value => [twosComplement value]
  | height value => [twosComplement value]
  | extensionCount value => [value]

/-- A buffer with the field overwritten. -/
def write (setting : Setting) (bytes : Bytes) : Bytes :=
  overwrite bytes setting.offset setting.content

/-- A buffer with some fields overwritten, one after the other. -/
def writeAll (settings : List Setting) (bytes : Bytes) : Bytes :=
  settings.foldl (fun block setting => setting.write block) bytes

/-- An identity with the field changed, and no other one. -/
def update (identity : Identity) : Setting → Identity
  | manufacturer reserved first second third =>
      { identity with manufacturer := .pack reserved first second third }
  | product code => { identity with product := ⟨code⟩ }
  | serial first second third fourth =>
      { identity with serial := ⟨#v[first, second, third, fourth]⟩ }
  | week value => { identity with week := value }
  | year since => { identity with year := 1990 + since.toNat }
  | version value => { identity with version := value }
  | revision value => { identity with revision := value }
  | videoInput byte => { identity with digital := byte.toNat.testBit 7 }
  | width value => { identity with width := value }
  | height value => { identity with height := value }
  | extensionCount value => { identity with extensionCount := value }

def updateAll (settings : List Setting) (identity : Identity) : Identity :=
  settings.foldl update identity

end Setting

variable {bytes : Bytes}

/-! ### What is read of a buffer with a field overwritten -/

/-- The identity that some octets make up. -/
def Identity.ofOctets (octets : Nat → Nat) : Identity where
  manufacturer := ⟨.ofNat (256 * octets 0x08 + octets 0x09)⟩
  product := ⟨.ofNat (256 * octets 0x0B + octets 0x0A)⟩
  serial := ⟨#v[.ofNat (octets 0x0C), .ofNat (octets 0x0D), .ofNat (octets 0x0E),
    .ofNat (octets 0x0F)]⟩
  week := .ofNat (octets 0x10)
  year := 1990 + octets 0x11
  version := (UInt8.ofNat (octets 0x12)).toInt8
  revision := (UInt8.ofNat (octets 0x13)).toInt8
  digital := (octets 0x14).testBit 7
  width := (UInt8.ofNat (octets 0x15)).toInt8
  height := (UInt8.ofNat (octets 0x16)).toInt8
  extensionCount := .ofNat (octets 0x7E)

/-- **The readers** of a buffer with a whole base block give the identity of its octets. -/
theorem reads_ofOctets (whole : blockLength ≤ bytes.length) :
    Reads bytes (.ofOctets (octet bytes)) where
  manufacturer := decodes_manufacturer.served whole
  product := decodes_product.served whole
  serial := decodes_serial.served whole
  week := decodes_week.served whole
  year := by
    rw [decodes_year.served whole, Decoded.year, Int.add_comm]
    rfl
  version := decodes_version.served whole
  digital := decodes_isDigital.served whole
  size := decodes_size.served whole
  extensionCount := decodes_extensionCount.served whole

namespace Setting

/-- The fields end with the height, but for the number of extensions, which is a byte by itself. -/
theorem span (setting : Setting) :
    setting.offset + setting.content.length ≤ 0x17 ∨
      setting.offset = 0x7E ∧ setting.content.length = 1 := by
  cases setting
  case extensionCount value => exact Or.inr ⟨rfl, rfl⟩
  all_goals exact Or.inl (Nat.le_of_ble_eq_true rfl)

theorem fits (setting : Setting) (whole : blockLength ≤ bytes.length) :
    setting.offset + setting.content.length ≤ bytes.length := by
  have base : 128 ≤ bytes.length := whole
  rcases setting.span with early | ⟨place, single⟩
  · omega
  · omega

theorem length_write (setting : Setting) (whole : blockLength ≤ bytes.length) :
    (setting.write bytes).length = bytes.length := length_overwrite (setting.fits whole)

/-- **The step.** The octets with one field overwritten make up the identity with that field
changed. -/
theorem ofOctets_write (setting : Setting) (whole : blockLength ≤ bytes.length) :
    Identity.ofOctets (octet (setting.write bytes)) =
      setting.update (.ofOctets (octet bytes)) := by
  have written := funext (octet_overwrite (setting.fits whole))
  rw [write, written]
  -- An octet outside of the span evaluates to what it was, so each case is about its own field.
  cases setting with
  | manufacturer reserved first second third =>
      exact congrArg (fun raw => { Identity.ofOctets (octet bytes) with manufacturer := ⟨raw⟩ })
        (ofNat_bytes (ManufacturerId.pack reserved first second third).raw)
  | product code =>
      exact congrArg (fun raw => { Identity.ofOctets (octet bytes) with product := ⟨raw⟩ })
        (ofNat_bytes code)
  | serial first second third fourth =>
      have kept : #v[UInt8.ofNat first.toNat, .ofNat second.toNat, .ofNat third.toNat,
          .ofNat fourth.toNat] = #v[first, second, third, fourth] := by
        simp only [UInt8.ofNat_toNat]
      exact congrArg (fun raw => { Identity.ofOctets (octet bytes) with serial := ⟨raw⟩ }) kept
  | week value =>
      exact congrArg (fun week => { Identity.ofOctets (octet bytes) with week := week })
        UInt8.ofNat_toNat
  | year since => rfl
  | version value =>
      exact congrArg (fun version => { Identity.ofOctets (octet bytes) with version := version })
        (toInt8_twosComplement value)
  | revision value =>
      exact congrArg (fun revision => { Identity.ofOctets (octet bytes) with revision := revision })
        (toInt8_twosComplement value)
  | videoInput byte => rfl
  | width value =>
      exact congrArg (fun width => { Identity.ofOctets (octet bytes) with width := width })
        (toInt8_twosComplement value)
  | height value =>
      exact congrArg (fun height => { Identity.ofOctets (octet bytes) with height := height })
        (toInt8_twosComplement value)
  | extensionCount value =>
      exact congrArg
        (fun count => { Identity.ofOctets (octet bytes) with extensionCount := count })
        UInt8.ofNat_toNat

/-- **The run.** With any number of fields overwritten, the identity has changed with each of
them. -/
theorem ofOctets_writeAll (settings : List Setting) (whole : blockLength ≤ bytes.length) :
    blockLength ≤ (writeAll settings bytes).length ∧
      Identity.ofOctets (octet (writeAll settings bytes)) =
        updateAll settings (.ofOctets (octet bytes)) := by
  unfold writeAll updateAll
  induction settings generalizing bytes with
  | nil => exact ⟨whole, rfl⟩
  | cons setting rest ih =>
      have also : blockLength ≤ (setting.write bytes).length :=
        (setting.length_write whole).symm ▸ whole
      rw [List.foldl_cons, List.foldl_cons, ← setting.ofOctets_write whole]
      exact ih also

/-! ### What is apart from every field -/

/-- Behind the height a field changes at most the number of extensions. -/
theorem octet_write_of_apart (setting : Setting) (whole : blockLength ≤ bytes.length)
    {place : Nat} (behind : 0x17 ≤ place) (apart : setting.offset = 0x7E → place ≠ 0x7E) :
    octet (setting.write bytes) place = octet bytes place := by
  rw [write, octet_overwrite (setting.fits whole), if_neg]
  rintro ⟨above, below⟩
  rcases setting.span with early | ⟨count, single⟩
  · omega
  · exact apart count (by omega)

theorem slots_write (setting : Setting) (whole : blockLength ≤ bytes.length) :
    Decoded.slots (setting.write bytes) = Decoded.slots bytes :=
  Decoded.slots_congr fun place above below =>
    setting.octet_write_of_apart whole (by omega) fun _ => by omega

theorem preferred_write (setting : Setting) (whole : blockLength ≤ bytes.length) :
    Decoded.preferred (setting.write bytes) = Decoded.preferred bytes := by
  have firstSlot : Decoded.slot (setting.write bytes) 0x36 = Decoded.slot bytes 0x36 :=
    Decoded.slot_congr fun index inside =>
      setting.octet_write_of_apart whole (by omega) fun _ => by omega
  rw [Decoded.preferred, Decoded.preferred, firstSlot]

/-- **What is advertised** depends on the number of extensions, and on no other field. -/
theorem advertised_write (setting : Setting) (whole : blockLength ≤ bytes.length)
    (apart : setting.offset ≠ 0x7E) : advertised (setting.write bytes) = advertised bytes := by
  have kept : ∀ place, 0x17 ≤ place → octet (setting.write bytes) place = octet bytes place :=
    fun place behind => setting.octet_write_of_apart whole behind fun count => absurd count apart
  have flags : ∀ flag < 17,
      Established.isSet (setting.write bytes) flag = Established.isSet bytes flag := by
    intro flag _
    rw [Established.isSet, Established.isSet, kept _ (by omega)]
  refine advertised_congr (setting.length_write whole) flags (fun place above _ => ?_)
    (fun _ => kept 128 (by decide)) (fun _ => kept 130 (by decide)) fun _ place behind _ => ?_
  · exact kept place (by omega)
  · exact kept place (by omega)

end Setting

/-! ### How a written value is displayed -/

theorem ManufacturerId.toNat_pack (reserved : Bool) (first second third : Fin 32) :
    (pack reserved first second third).raw.toNat =
      32768 * reserved.toNat + 1024 * first + 32 * second + third := by
  have bit := reserved.toNat_le
  have size : UInt16.size = 65536 := rfl
  exact UInt16.toNat_ofNat_of_lt' (by omega)

/-- The letters that values of five bits stand for, without those that are absent. -/
def ManufacturerId.spelled (values : List (Fin 32)) : List Char :=
  (values.filter (· ≠ 0)).map fun value => Char.ofNat ('@'.toNat + value.val)

theorem ManufacturerId.filterMap_letter (values : List (Fin 32)) :
    (values.map Fin.val).filterMap letter? = spelled values := by
  induction values with
  | nil => rfl
  | cons value rest ih =>
      rw [List.map_cons, List.filterMap_cons, ih, spelled, spelled, List.filter_cons]
      by_cases absent : value = 0
      · subst absent
        rfl
      · have number : value.val ≠ 0 := fun zero => absent (Fin.ext zero)
        rw [letter?, if_neg number, if_pos (decide_eq_true absent)]
        rfl

/-- **The letters of a maker** are those of its three values, whatever the reserved bit is. -/
theorem ManufacturerId.letters_pack (reserved : Bool) (first second third : Fin 32) :
    (pack reserved first second third).letters = spelled [first, second, third] := by
  have number := toNat_pack reserved first second third
  have high : (pack reserved first second third).raw.toNat / 1024 % 32 = first := by omega
  have middle : (pack reserved first second third).raw.toNat / 32 % 32 = second := by omega
  have low : (pack reserved first second third).raw.toNat % 32 = third := by omega
  rw [← filterMap_letter, letters, high, middle, low]
  rfl

theorem ManufacturerId.length_spelled_le (values : List (Fin 32)) :
    (spelled values).length ≤ values.length := by
  rw [spelled, List.length_map]
  exact List.length_filter_le _ _

theorem ManufacturerId.bounds_of_mem_spelled {values : List (Fin 32)} {letter : Char}
    (member : letter ∈ spelled values) : 'A' ≤ letter ∧ letter ≤ '_' := by
  have each : ∀ value : Fin 32, value ≠ 0 →
      'A' ≤ Char.ofNat ('@'.toNat + value.val) ∧
        Char.ofNat ('@'.toNat + value.val) ≤ '_' := by decide
  obtain ⟨value, present, rfl⟩ := List.mem_map.mp member
  exact each value (of_decide_eq_true (List.mem_filter.mp present).2)

/-- How a byte of a serial number is displayed: a letter or a digit as itself, any other byte as two
hexadecimal digits. -/
def SerialCode.shown (byte : UInt8) : List Char :=
  let character := Char.ofNat byte.toNat
  let digits := "0123456789ABCDEF".toList
  if '0' ≤ character ∧ character ≤ '9' ∨ 'A' ≤ character ∧ character ≤ 'Z' ∨
      'a' ≤ character ∧ character ≤ 'z' then [character]
  else [digits.getD (byte.toNat / 16) '?', digits.getD (byte.toNat % 16) '?']

theorem SerialCode.byteText_eq_shown (byte : UInt8) : byteText byte = shown byte := by
  have each : ∀ value < 256, byteText (.ofNat value) = shown (.ofNat value) := by decide +kernel
  rw [← UInt8.ofNat_toNat (x := byte)]
  exact each byte.toNat byte.toNat_lt

/-- **A serial number** is displayed from its last byte to its first one. -/
theorem SerialCode.text_eq_shown (first second third fourth : UInt8) :
    (SerialCode.mk #v[first, second, third, fourth]).text =
      String.ofList (shown fourth ++ shown third ++ shown second ++ shown first) := by
  have spread : [fourth, third, second, first].flatMap byteText =
      shown fourth ++ shown third ++ shown second ++ shown first := by
    simp only [List.flatMap_cons, List.flatMap_nil, byteText_eq_shown, List.append_assoc,
      List.append_nil]
  exact congrArg String.ofList spread

/-! ### All together -/

/-- **Fields of the identity are read as they were written, and apart from each other.** A buffer
with a whole base block has an identity. Where a field is overwritten with the encoding of any
value, the readers give that identity with that field changed to the value and no other one; where
several are, one after the other, the identity with these changes in turn. The slots, and with them
the descriptors, the model name and the preferred resolution, are as before, and so are the
resolutions unless it is the number of extensions that is written. A written maker is displayed as
the letters of its values, at most three of them, without regard to the reserved bit, and a written
serial number from its last byte to its first. -/
theorem identity_reads_back (whole : blockLength ≤ bytes.length) :
    (∃ identity, Reads bytes identity ∧
      (∀ setting : Setting, Reads (setting.write bytes) (setting.update identity)) ∧
      ∀ settings : List Setting,
        Reads (Setting.writeAll settings bytes) (Setting.updateAll settings identity)) ∧
    (∀ setting : Setting,
      BaseBlock.slots (setting.write bytes) = BaseBlock.slots bytes ∧
      (BaseBlock.descriptors (setting.write bytes)).run.value =
        (BaseBlock.descriptors bytes).run.value ∧
      BaseBlock.modelName (setting.write bytes) = BaseBlock.modelName bytes ∧
      BaseBlock.preferred (setting.write bytes) = BaseBlock.preferred bytes ∧
      ((∀ count, setting ≠ .extensionCount count) →
        (BaseBlock.resolutions (setting.write bytes)).run.value =
          (BaseBlock.resolutions bytes).run.value)) ∧
    (∀ (reserved : Bool) (first second third : Fin 32), ∃ maker,
      BaseBlock.manufacturer ((Setting.manufacturer reserved first second third).write bytes) =
        .ok maker ∧
      maker.letters = ManufacturerId.spelled [first, second, third] ∧
      maker.text = String.ofList (ManufacturerId.spelled [first, second, third]) ∧
      maker.letters.length ≤ 3 ∧ ∀ letter ∈ maker.letters, 'A' ≤ letter ∧ letter ≤ '_') ∧
    ∀ first second third fourth : UInt8, ∃ serial,
      BaseBlock.serial ((Setting.serial first second third fourth).write bytes) = .ok serial ∧
      serial.text = String.ofList (SerialCode.shown fourth ++ SerialCode.shown third ++
        SerialCode.shown second ++ SerialCode.shown first) := by
  have wholeAfter : ∀ setting : Setting, blockLength ≤ (setting.write bytes).length :=
    fun setting => (setting.length_write whole).symm ▸ whole
  have step : ∀ setting : Setting,
      Reads (setting.write bytes) (setting.update (.ofOctets (octet bytes))) := by
    intro setting
    rw [← setting.ofOctets_write whole]
    exact reads_ofOctets (wholeAfter setting)
  refine ⟨⟨.ofOctets (octet bytes), reads_ofOctets whole, step, fun settings => ?_⟩,
    fun setting => ?_, fun reserved first second third => ?_, fun first second third fourth => ?_⟩
  · obtain ⟨wholeStill, run⟩ := Setting.ofOctets_writeAll settings whole
    rw [← run]
    exact reads_ofOctets wholeStill
  · have slots := setting.slots_write whole
    have also := wholeAfter setting
    refine ⟨?_, ?_, ?_, ?_, fun other => ?_⟩
    · rw [decodes_slots.served also, decodes_slots.served whole, slots]
    · rw [decodes_descriptors.served also, decodes_descriptors.served whole, Decoded.descriptors,
        Decoded.descriptors, slots]
    · rw [decodes_modelName.served also, decodes_modelName.served whole, Decoded.modelName,
        Decoded.modelName, slots]
    · rw [decodes_preferred.served also, decodes_preferred.served whole,
        setting.preferred_write whole]
    · have apart : setting.offset ≠ 0x7E := by
        cases setting
        case extensionCount count => exact absurd rfl (other count)
        all_goals exact Nat.ne_of_beq_eq_false rfl
      rw [decodes_resolutions.served also, decodes_resolutions.served whole, Decoded.resolutions,
        Decoded.resolutions, setting.advertised_write whole apart]
  · have letters := ManufacturerId.letters_pack reserved first second third
    refine ⟨_, (step (.manufacturer reserved first second third)).manufacturer, letters,
      congrArg String.ofList letters, ?_, fun letter member => ?_⟩
    · exact (congrArg List.length letters).trans_le (ManufacturerId.length_spelled_le _)
    · exact ManufacturerId.bounds_of_mem_spelled (letters ▸ member)
  · exact ⟨_, (step (.serial first second third fourth)).serial,
      SerialCode.text_eq_shown first second third fourth⟩

/-- The sample with a negative width is still made by Dell and as high as before. -/
theorem identity_reads_back_sample :
    blockLength ≤ sample.length ∧
      BaseBlock.size ((Setting.width (-1)).write sample) = .ok ⟨-1, 30⟩ ∧
      (BaseBlock.manufacturer ((Setting.width (-1)).write sample)).map ManufacturerId.text =
        .ok "DEL" := by
  have whole : blockLength ≤ sample.length := by decide +kernel
  obtain ⟨identity, before, written, -⟩ := (identity_reads_back whole).1
  have size : BaseBlock.size sample = .ok ⟨53, 30⟩ := by decide +kernel
  have maker : (BaseBlock.manufacturer sample).map ManufacturerId.text = .ok "DEL" := by
    decide +kernel
  have after := written (.width (-1))
  have height : identity.height = 30 :=
    congrArg PhysicalSize.vertical (Except.ok.inj (before.size.symm.trans size))
  refine ⟨whole, ?_, ?_⟩
  · rw [after.size]
    show Except.ok (PhysicalSize.mk (-1) identity.height) = _
    rw [height]
  · rw [after.manufacturer]
    rw [before.manufacturer] at maker
    exact maker

end Edid
