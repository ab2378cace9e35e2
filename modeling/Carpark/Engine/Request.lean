import Carpark.Engine.Booking
import Carpark.Engine.Gate
import Carpark.Engine.Upkeep

/-!
Everything that can be asked of an engine, as data, and the program that carries it out.
-/

namespace Carpark

inductive Operation
  | createParking (address : Address) (policy : Option Policy)
  | updateParking (id : Ulid) (version : Version) (address : Address) (policy : Policy)
  | deleteParking (id : Ulid) (version : Version)
  | addSector (parking : Ulid) (spec : SectorSpec)
  | updateSector (id : Ulid) (version : Version) (spec : SectorSpec)
  | activateSector (id : Ulid) (version : Version)
  | deactivateSector (id : Ulid) (version : Version) (time : Ms)
  | deleteSector (id : Ulid) (version : Version)
  | finalizeDeactivation (sector : Ulid)
  | book (sector : Ulid) (start stop : Ms)
  | cancel (reservation : Ulid)
  | enter (reservation : Ulid)
  | driveIn (parking : Ulid) (anonymous : Bool)
  | exit (reservation : Ulid) (code : Option String) (ending : Bool)
  | expire (reservation : Ulid)
  | forceExit (reservation : Ulid)
  | close (reservation : Ulid)
  | reservation (id : Ulid)
  | reservations (page : Page)
  | events (reservation : Ulid)
  deriving DecidableEq, Repr

inductive Request
  | operation (ctx : Context) (op : Operation)
  | parking (id : Ulid)
  | parkings (page : Page)
  | sector (id : Ulid)
  | sectors (parking : Ulid) (page : Page)
  | isOccupying (reservation : Ulid)
  | occupancy (sector : Ulid)
  | candidates (now : Ms)
  | sweep (now : Ms)
  | compact
  | appends
  | settings
  deriving DecidableEq, Repr

inductive Answer
  | done
  | flag (b : Bool)
  | number (n : Nat)
  | parking (p : Parking)
  | sector (s : Sector)
  | reservation (r : Reservation)
  | ticket (t : Ticket)
  | parkings (page : Paged Parking)
  | sectors (page : Paged Sector)
  | reservations (page : Paged Reservation)
  | events (es : List GateEvent)
  | candidates (found : List (SweepPhase × List Ulid))
  | report (r : Option SweepReport)
  | settings (s : Settings)

def Program.answering {α : Type} (p : Program (Except Failure α)) (answer : α → Answer) :
    Program (Except Failure Answer) := do
  return (← p).map answer

def Operation.program (settings : Settings) (ctx : Context) :
    Operation → Program (Except Failure Answer)
  | .createParking address policy =>
    (Registry.createParking ctx settings address policy).answering .parking
  | .updateParking id version address policy =>
    (Registry.updateParking ctx id version address policy).answering .parking
  | .deleteParking id version => (Registry.deleteParking ctx id version).answering fun _ => .done
  | .addSector parking spec => (Registry.addSector ctx parking spec).answering .sector
  | .updateSector id version spec => (Registry.updateSector ctx id version spec).answering .sector
  | .activateSector id version => (Registry.activateSector ctx id version).answering .sector
  | .deactivateSector id version time =>
    (Registry.deactivateSector ctx id version time).answering .sector
  | .deleteSector id version => (Registry.deleteSector ctx id version).answering fun _ => .done
  | .finalizeDeactivation sector => (Registry.finalizeDeactivation ctx sector).answering .flag
  | .book sector start stop => (Booking.make settings ctx sector start stop).answering .reservation
  | .cancel id => (Booking.cancel ctx id).answering .reservation
  | .enter id => (Gate.enter settings ctx id).answering .ticket
  | .driveIn parking anonymous => (Gate.driveIn settings ctx parking anonymous).answering .ticket
  | .exit id code ending => (Gate.exit settings ctx id code ending).answering .reservation
  | .expire id => (Termination.expire settings ctx id).answering .flag
  | .forceExit id => (Termination.forceExit settings ctx id).answering .flag
  | .close id => (Termination.close settings ctx id).answering .flag
  | .reservation id => (Program.ofLookup (Listing.reservation ctx id)).answering .reservation
  | .reservations page =>
    (Program.ofLookup (Listing.reservations ctx page)).answering .reservations
  | .events id => (Program.ofLookup (Listing.events ctx id)).answering .events

def Sweep.survey (settings : Settings) (now : Ms) :
    List SweepPhase → Reading (List (SweepPhase × List Ulid))
  | [] => return []
  | phase :: rest => do
    let found ← candidates settings now phase
    return (phase, found) :: (← survey settings now rest)

def Request.program (settings : Settings) : Request → Program (Except Failure Answer)
  | .operation ctx op => op.program settings ctx
  | .parking id => (Program.ofLookup (Lookup.parking id)).answering .parking
  | .parkings page => (Program.ofLookup (Listing.parkings page)).answering .parkings
  | .sector id => (Program.ofLookup (Lookup.sector id)).answering .sector
  | .sectors id page => (Program.ofLookup (Listing.sectors id page)).answering .sectors
  | .isOccupying id => (Program.ofLookup (Listing.isOccupying id)).answering .flag
  | .occupancy id => (Program.ofLookup (Listing.occupancy id)).answering .number
  | .candidates now => do
    return .ok (.candidates (← Program.ofReading (Sweep.survey settings now SweepPhase.all)))
  | .sweep now => do return .ok (.report (← Sweep.once settings now))
  | .compact => Upkeep.compact.answering fun _ => .done
  | .appends => .appends fun n => .done (.ok (.number n))
  | .settings => return .ok (.settings settings)

end Carpark
