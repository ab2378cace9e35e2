import Carpark.Time

/-!
Bounds on what the registry and the booking desk accept.
-/

namespace Carpark.Limits

def city : Nat := 64
def zip : Nat := 16
def street : Nat := 128

def sectorsPerParking : Nat := 256
def placesPerSector : Nat := 100000
def sectorWeight : Nat := 1000

def pageSize : Nat := 200
def firstPageSize : Nat := 20

def earliest : Ms := 946684800000

def latest : Ms := 4102444800000

end Carpark.Limits
