import Proximity.Layout.Compile

/-! The layouts of well-known beacon types. -/

namespace Proximity

/-- A beacon type with a name of its own. -/
structure KnownLayout where
  name : String
  source : String
  description : String
deriving DecidableEq

namespace KnownLayout

def altBeacon : KnownLayout where
  name := "altbeacon"
  source := "m:2-3=beac,i:4-19,i:20-21,i:22-23,p:24-24,d:25-25"
  description := "AltBeacon open beacon format"

def iBeacon : KnownLayout where
  name := "ibeacon"
  source := "m:2-3=0215,i:4-19,i:20-21,i:22-23,p:24-24"
  description := "Apple iBeacon"

def eddystoneUid : KnownLayout where
  name := "eddystone_uid"
  source := "s:0-1=feaa,m:2-2=00,p:3-3,i:4-13,i:14-19"
  description := "Eddystone UID frame"

/-- All of them, in the order in which they are tried. -/
def all : List KnownLayout := [altBeacon, iBeacon, eddystoneUid]

def find? (name : String) : Option KnownLayout := all.find? (·.name == name)

def compileAll : Except LayoutError (List Layout) :=
  all.mapM fun known => Layout.compile known.source

end KnownLayout

end Proximity
