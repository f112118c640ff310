import Proximity.Advertisement
import Proximity.Text.Utf8

/-! What the AD structures of an advertisement say. -/

namespace Proximity

/-- The most 16-bit service UUIDs that are collected. -/
def maxServiceUuids : Nat := 8

/-- What was found in the AD structures of an advertisement. -/
structure Summary where
  flags : Option UInt8 := none
  name : Option String := none
  serviceUuids : List UInt16 := []
  /-- The first structure with a company code. -/
  manufacturer : Option AdStructure := none
  /-- The first structure with data of a service. -/
  serviceData : Option AdStructure := none
deriving DecidableEq

namespace Summary

/-- The numbers that pairs of bytes spell, least significant byte first; a last byte alone spells
none. -/
def uuids16 : Bytes → List UInt16
  | low :: high :: rest => (Bytes.word [high, low]).toUInt16 :: uuids16 rest
  | _ => []

/-- What is known after one more structure. A full name takes the place of any name, and a short one
only the place of none. -/
def add (summary : Summary) (s : AdStructure) : Summary :=
  if s.kind = AdStructure.flagsKind then { summary with flags := s.body.head? }
  else if s.kind = AdStructure.someUuids16Kind ∨ s.kind = AdStructure.allUuids16Kind then
    { summary with
      serviceUuids := (summary.serviceUuids ++ uuids16 s.body).take maxServiceUuids }
  else if s.kind = AdStructure.fullNameKind then { summary with name := Utf8.read? s.body }
  else if s.kind = AdStructure.shortNameKind then
    { summary with name := summary.name <|> Utf8.read? s.body }
  else if s.body.length < headerLength then summary
  else if s.kind = AdStructure.manufacturerKind then
    { summary with manufacturer := summary.manufacturer <|> some s }
  else if s.kind = AdStructure.serviceData16Kind ∨ s.kind = AdStructure.serviceData32Kind then
    { summary with serviceData := summary.serviceData <|> some s }
  else summary

/-- What the structures that `data` starts with say. -/
def ofBytes (data : Bytes) : Summary := (AdStructure.split data).1.foldl add {}

/-- The company code of the structure that has one. -/
def company (summary : Summary) : Option UInt16 :=
  summary.manufacturer.bind fun s => (uuids16 s.body).head?

end Summary

end Proximity
